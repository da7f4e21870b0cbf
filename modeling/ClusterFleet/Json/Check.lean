import ClusterFleet.Json.Printer
import ClusterFleet.Time.Relaxed

namespace ClusterFleet.Json

/-- Accepts the JSON values of one form and writes them in that form's own way. -/
abbrev Check := Json → Option Json

namespace Check

def text : Check
  | .str s => some (.str s)
  | _ => none

def flag : Check
  | .bool b => some (.bool b)
  | _ => none

def integerIn (lo hi : Int) : Check
  | .int n => if lo ≤ n ∧ n ≤ hi then some (.int n) else none
  | _ => none

def integer : Check := integerIn Int64.minValue.toInt Int64.maxValue.toInt

def anything : Check := fun j => if j.isReadable then some j.canonical else none

/-- A time with any offset, written in UTC and in whole seconds. -/
def time : Check
  | .str s => (Time.Relaxed.parse? s).map fun t => .str (Time.wholeSeconds t)
  | _ => none

def listOf (c : Check) : Check
  | .arr items => (items.mapM c).map .arr
  | _ => none

def addChecked (c : Check) (done : List Member) (m : Member) : Option (List Member) := do
  return setMember m.1 (← c m.2) done

/-- Of repeated keys the last one counts, but all values are checked. -/
def mapOf (c : Check) : Check
  | .obj members => (members.foldlM (addChecked c) []).map .obj
  | _ => none

def addField (fields : List (String × Check)) (done : List Member) (m : Member) :
    Option (List Member) :=
  match fields.find? (·.1 = m.1) with
  | none => some done
  | some (_, c) => if m.2.isNull then some (dropMember m.1 done) else addChecked c done m

/-- An object; members not named are dropped, and so are those that are `null`. -/
def object (fields : List (String × Check)) : Check
  | .obj members => (members.foldlM (addField fields) []).map .obj
  | _ => none

def addDefault (done : List Member) (name : String) : List Member :=
  if (lastMember name done).isSome then done else done ++ [(name, .str "")]

/-- An object in which the members `texts` are always written, empty when unset. -/
def objectWith (fields : List (String × Check)) (texts : List String) : Check := fun j =>
  match object fields j with
  | some (.obj members) => some (.obj (texts.foldl addDefault members))
  | _ => none

end Check
end ClusterFleet.Json
