import ClusterFleet.Condition.Merge
import ClusterFleet.Freshness
import ClusterFleet.Health.Probe
import ClusterFleet.Program

namespace ClusterFleet

inductive PassOutcome where
  | requeueAfter (s : Span)
  /-- The descriptor is gone. -/
  | finished
  deriving DecidableEq

inductive PassError where
  | fetch (cluster : String) (cause : StoreError)
  | persistence (cluster : String) (cause : StoreError)
  /-- There is no connection; the cluster was recorded as offline. -/
  | cacheMiss (cluster : String)
  deriving DecidableEq

namespace PassError

def isForeign : PassError → Bool
  | .fetch _ cause | .persistence _ cause => cause.isForeign
  | .cacheMiss _ => false

/-- The text of an error, where `library` tells the client library's own accounts. -/
def text (library : StoreError → String) : PassError → String
  | .fetch cluster cause => "failed to fetch cluster " ++ cluster ++ ": " ++ cause.text library
  | .persistence cluster cause =>
    "failed to persist status of cluster " ++ cluster ++ ": " ++ cause.text library
  | .cacheMiss cluster => "no cached connection for cluster " ++ cluster

/-- The text of an error in which the library has no part. -/
def message? (e : PassError) : Option String :=
  if e.isForeign then none else some (e.text fun _ => "")

end PassError

namespace Health

def persist (name : String) (cs : List Condition) (then_ : Except PassError PassOutcome) :
    Program (Except PassError PassOutcome) := do
  match ← Program.act (.writeStatus name ⟨cs⟩) with
  | .error e => return .error (.persistence name e)
  | .ok () => return then_

/-- Without a connection nothing is left on record but that the cluster is offline. -/
def recordMiss (name : String) (d : Descriptor) : Program (Except PassError PassOutcome) := do
  let now ← Program.act .now
  persist name (Condition.merge (d.conditions.filter (·.aspect = .offline)) [offline] now)
    (.error (.cacheMiss name))

def recordProbe (name : String) (d : Descriptor) (c : Connection) (interval : Span) :
    Program (Except PassError PassOutcome) := do
  let answer ← Program.act (.probe c.client)
  let now ← Program.act .now
  persist name (Condition.merge d.conditions (observe answer) now) (.ok (.requeueAfter interval))

/-- Reads the descriptor, asks the cluster for its liveness, and writes what was observed into the
stored conditions. -/
def pass (interval : Span) (name : String) : Program (Except PassError PassOutcome) := do
  match ← Program.act (.findCluster name) with
  | .error e => return .error (.fetch name e)
  | .ok none => return .ok .finished
  | .ok (some d) =>
    match ← Program.act (.lookUp name) with
    | none => recordMiss name d
    | some c => recordProbe name d c interval

inductive Plan where
  | requeue (s : Span)
  | awaitChange
  deriving DecidableEq

/-- After a pass; an error is tried again at the usual pace. -/
def planAfter (interval : Span) : Except PassError PassOutcome → Plan
  | .ok (.requeueAfter s) => .requeue s
  | .ok .finished => .awaitChange
  | .error _ => .requeue interval

/-- A descriptor that was checked recently waits; any other one is checked now. -/
def reconcile (interval : Span) (d : Descriptor) : Program (Plan × Option PassError) := do
  let now ← Program.act .now
  match remaining? d.conditions now interval with
  | some left => return (.requeue left, none)
  | none =>
    let r ← pass interval d.name
    return (planAfter interval r, match r with | .error e => some e | .ok _ => none)

end Health
end ClusterFleet
