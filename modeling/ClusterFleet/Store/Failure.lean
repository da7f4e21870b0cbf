import ClusterFleet.Store.Resource
import ClusterFleet.Text.Quoted

namespace ClusterFleet
open Text

structure ApiStatus where
  status : String
  message : String
  reason : String
  code : Nat
  deriving DecidableEq

namespace ApiStatus

def description (s : ApiStatus) : String :=
  "ErrorResponse \x7b status: " ++ quoted s.status ++ ", message: " ++ quoted s.message ++
    ", reason: " ++ quoted s.reason ++ ", code: " ++ toString s.code ++ " \x7d"

def text (s : ApiStatus) : String :=
  "ApiError: " ++ s.message ++ ": " ++ s.reason ++ " (" ++ s.description ++ ")"

end ApiStatus

/-- The last four kinds come from the client library. They keep what the library was given, from
which it makes its own account of them. -/
inductive StoreError where
  | notFound (what : String)
  | badPayload (detail : String)
  | refused (status : ApiStatus)
  /-- An answer that is not the JSON it should be. -/
  | malformed {asked : Verb} {text : String}
  /-- The connection failed. -/
  | unreachable {account : String}
  /-- The request could not be written, so none was sent. -/
  | unsendable {asked : Resource}
  /-- An answer that is not UTF-8. -/
  | notText {body : List UInt8}
  deriving DecidableEq

namespace StoreError

def isForeign : StoreError → Bool
  | .notFound _ | .badPayload _ | .refused _ => false
  | _ => true

/-- The text of an error, where `library` tells the library's own accounts. -/
def text (library : StoreError → String) : StoreError → String
  | .notFound what => "object not found: " ++ what
  | .badPayload detail => "JSON serialization error: " ++ detail
  | .refused s => "kube api error: " ++ s.text
  | e => "kube api error: " ++ library e

/-- The text of an error in which the library has no part. -/
def message? (e : StoreError) : Option String :=
  if e.isForeign then none else some (e.text fun _ => "")

end StoreError
end ClusterFleet
