import ClusterFleet.Http.Status
import ClusterFleet.Json.Basic
import ClusterFleet.Text.Utf8

namespace ClusterFleet.Http

inductive Answer where
  /-- The connection failed. -/
  | failed
  | response (code : Nat) (body : List UInt8)
  deriving DecidableEq

namespace Answer

/-- What comes back under a number; one that is no code makes the request fail. -/
def ofNumber (n : Nat) (body : List UInt8) : Answer :=
  if isCode n then .response n body else .failed

/-- The body of an answer that is no error and whose body is text. -/
def text? : Answer → Option String
  | .failed => none
  | .response code body => if isErrorCode code then none else Text.Utf8.decode? body

end Answer

structure Request where
  method : String
  path : String
  body : Option Json

end ClusterFleet.Http
