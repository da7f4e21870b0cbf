import ClusterFleet.Operator.Agenda
import ClusterFleet.Operator.Watch

namespace ClusterFleet

structure Visit where
  key : ObjectKey
  /-- The cluster that it visits. -/
  name : String
  /-- When it goes on. -/
  round : Nat
  rest : Program (Health.Plan × Option PassError)

inductive Duty where
  /-- With the registration in hand, if there is one. -/
  | registration (inHand : Option (Program Unit))
  | health (a : Agenda) (visits : List Visit)

/--
A registration watch handles one notice after the other; a health controller takes notices as they
come and has any number of passes under way, one for an object. What happens at the same time
happens in rounds: whoever makes a request has the answer in the next round.
-/
structure Part where
  duty : Duty
  /-- Which equipment it uses. -/
  equipment : Nat
  /-- What was started with it ends with it. -/
  job : Nat
  watch : Watch
  /-- Notices that are still to be handled. -/
  inbox : List Notice := []
  /-- When it goes on with its watch, its inbox and the registration in hand. -/
  round : Nat := 0
  ended : Bool := false

inductive Errand where
  | readWatch
  | takeNotices
  | register (p : Program Unit)
  | beginVisit (k : ObjectKey)
  | visit (v : Visit)

/-- Visits come last in a round. -/
def Errand.isLate : Errand → Bool
  | .beginVisit _ | .visit _ => true
  | _ => false

structure Turnout where
  time : Nat
  round : Nat
  errand : Errand

namespace Turnout

/-- Unless it comes later anyway, it comes now, and not in a round that is over. -/
def notBefore (now round : Nat) (x : Turnout) : Turnout :=
  if x.time ≤ now then { x with time := now, round := max x.round round } else { x with round := 0 }

def isBefore (x y : Turnout) : Bool :=
  x.time < y.time || x.time = y.time &&
    (x.round < y.round || x.round = y.round && !x.errand.isLate && y.errand.isLate)

end Turnout

namespace Part

/-- A watch is read when there is nothing left in the inbox. -/
def reading (p : Part) (now : Nat) : List Turnout :=
  if p.inbox.isEmpty then
    ((p.watch.wakeTime? now).map fun t => ⟨t, p.round, .readWatch⟩).toList
  else [⟨now, p.round, .takeNotices⟩]

def errands (p : Part) (now : Nat) : List Turnout :=
  if p.ended then []
  else match p.duty with
    | .registration (some r) => [⟨now, p.round, .register r⟩]
    | .registration none => p.reading now
    | .health a visits =>
      p.reading now ++ visits.map (fun v => ⟨now, v.round, .visit v⟩) ++
        ((a.first? (visits.map (·.key))).map fun (k, t) => ⟨t, 0, .beginVisit k⟩).toList

def withDuty (d : Duty) (p : Part) : Part := { p with duty := d }

def restart (p : Part) : Part := { p with round := 0 }

def keepVisit (v : Visit) (p : Part) : Part :=
  match p.duty with
  | .health a visits => p.withDuty (.health a (visits.filter (·.key ≠ v.key) ++ [v]))
  | .registration _ => p

/-- Nothing is left of a part that cannot plan ahead. -/
def finishVisit (k : ObjectKey) (time : Nat) (plan : Health.Plan) (p : Part) : Option Part :=
  match p.duty with
  | .health a visits =>
    (a.plan k time plan).map fun a => p.withDuty (.health a (visits.filter (·.key ≠ k)))
  | .registration _ => some p

end Part
end ClusterFleet
