import ClusterFleet.Health.Pass
import ClusterFleet.Registration.Watch

namespace ClusterFleet

/-- What an object is known by: its name and, if it says one, its namespace. -/
structure ObjectKey where
  inNamespace : Option String
  name : String
  deriving DecidableEq

def Descriptor.key? (d : Descriptor) : Option ObjectKey :=
  d.metadata.name.map fun name => ⟨d.metadata.inNamespace, name⟩

abbrev Inventory := List (ObjectKey × Descriptor)

namespace Inventory

def erase (k : ObjectKey) (v : Inventory) : Inventory := v.filter (·.1 ≠ k)

def insert (k : ObjectKey) (d : Descriptor) (v : Inventory) : Inventory := (k, d) :: v.erase k

/-- An object that says no namespace stands in for those of its name in any namespace. -/
def find? (k : ObjectKey) (v : Inventory) : Option Descriptor :=
  v.lookup k <|> v.lookup { k with inNamespace := none }

end Inventory

/-- Which clusters are due for a health pass, and when. Nothing is due before the descriptors have
been listed once. -/
structure Agenda where
  known : Inventory := []
  /-- What the listing in progress has shown so far. -/
  incoming : Inventory := []
  complete : Bool := false
  /-- Keys and times, in the order they were entered; a key comes once. -/
  due : List (ObjectKey × Nat) := []

namespace Agenda

/-- Enters an object, unless it is due earlier anyway. -/
def enter (a : Agenda) (k : ObjectKey) (time : Nat) : Agenda :=
  match a.due.lookup k with
  | some t =>
    if t ≤ time then a
    else { a with due := a.due.filter (·.1 ≠ k) ++ [(k, time)] }
  | none => { a with due := a.due ++ [(k, time)] }

def strike (a : Agenda) (k : ObjectKey) : Agenda := { a with due := a.due.filter (·.1 ≠ k) }

/-- A descriptor without a key cannot be entered; then there is no agenda any more. -/
def note (a : Agenda) (time : Nat) : Notice → Option Agenda
  | .listingBegins => some { a with incoming := [] }
  | .listed d => do
    let k ← d.key?
    some (enter { a with incoming := a.incoming.insert k d } k time)
  | .listingEnds => some { a with known := a.incoming, incoming := [], complete := true }
  | .applied d => do
    let k ← d.key?
    some (enter { a with known := a.known.insert k d } k time)
  | .deleted d => do
    let k ← d.key?
    some { a with known := a.known.erase k }
  | .failed => some a

/-- The object that is due first, apart from some; of several the one entered first. -/
def first? (a : Agenda) (busy : List ObjectKey) : Option (ObjectKey × Nat) :=
  if !a.complete then none
  else (a.due.filter fun e => !busy.contains e.1).foldl (fun best e =>
    match best with
    | none => some e
    | some b => if e.2 < b.2 then some e else some b) none

def millis (s : Span) : Nat := (s.nanos + 999999) / 1000000

/-- How many milliseconds ahead something can be entered at most. -/
def horizon : Nat := (1 <<< 36) - 1

/-- What lies beyond the horizon cannot be entered; then there is no agenda any more. -/
def plan (a : Agenda) (k : ObjectKey) (time : Nat) : Health.Plan → Option Agenda
  | .requeue s => if millis s ≤ horizon then some (a.enter k (time + millis s)) else none
  | .awaitChange => some a

end Agenda
end ClusterFleet
