import ClusterFleet.Http.Answer

namespace ClusterFleet.Http

structure Transfer where
  code : Nat
  /-- How many bytes the body is said to have. -/
  declared : Nat
  received : List UInt8
  deriving DecidableEq

namespace Transfer

/-- What the client makes of a transfer. An interim answer is passed over, and nothing comes after
it; a body that ends before its declared length fails too, and bytes after it do not count. -/
def answer (t : Transfer) : Answer :=
  if !isCode t.code || isInterim t.code then .failed
  else if isBodiless t.code then .response t.code []
  else if t.received.length < t.declared then .failed
  else .response t.code (t.received.take t.declared)

end Transfer
end ClusterFleet.Http
