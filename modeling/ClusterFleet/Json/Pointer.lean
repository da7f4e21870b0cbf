import ClusterFleet.Json.Basic

namespace ClusterFleet.Json

/-- Undoes the escapes of a step: `~1` is a slash, and after that `~0` is a tilde. -/
def unescapeStep (s : String) : String :=
  (s.replace "~1" "/").replace "~0" "~"

def index? (s : String) : Option Nat :=
  let cs := s.toList
  if cs.isEmpty || !cs.all Char.isDigit || (cs.length > 1 && cs.head? = some '0') then none
  else s.toNat?

def child? (j : Json) (step : String) : Option Json :=
  match j with
  | .obj members => lastMember step members
  | .arr items => do items[(← index? step)]?
  | _ => none

/-- The empty pointer leads to the value itself; any other one starts with a slash. -/
def at? (pointer : String) (j : Json) : Option Json :=
  match pointer.splitOn "/" with
  | [""] => some j
  | "" :: steps => steps.foldlM (fun j s => j.child? (unescapeStep s)) j
  | _ => none

end ClusterFleet.Json
