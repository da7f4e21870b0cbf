import ClusterFleet.Registration.Service

namespace ClusterFleet

namespace RefreshHook

def addAll : List Connection → Program Unit
  | [] => return ()
  | c :: cs => do
    Program.act (.insert c)
    addAll cs

def fill : RefreshHook → Program Unit
  | .reload settings => do
    if ← Program.act .serviceHeld then
      let _ ← Registration.refresh settings
    return ()
  | .preload delay cs => do
    if delay ≠ 0 then Program.act (.sleep delay)
    addAll cs

def run (h : RefreshHook) : Program Unit := do
  Program.act .hookBegins
  h.fill

end RefreshHook

namespace Cache

/-- Holding the turn: runs the hook, unless a refresh was completed since `seen` was read. -/
def refreshSince (run : RefreshHook → Program Unit) (seen : UInt64) : Program Unit := do
  let count ← Program.act .refreshCount
  if count = seen then
    match ← Program.act .refreshHook with
    | some hook => run hook
    | none => pure ()
    Program.act .countRefresh

/-- At most one refresh goes on at a time, and a caller that has waited while another one completed
a refresh does not run one of its own. -/
def refreshBy (run : RefreshHook → Program Unit) : Program Unit := do
  let seen ← Program.act .refreshCount
  Program.act .takeTurn
  refreshSince run seen
  Program.act .endTurn

/-- Looks up a connection; on a miss the cache may be refreshed once. -/
def getBy (run : RefreshHook → Program Unit) (name : String) (mayRefresh : Bool) :
    Program (Option Connection) := do
  match ← Program.act (.lookUp name) with
  | some c => return some c
  | none =>
    if mayRefresh then do
      refreshBy run
      Program.act (.lookUp name)
    else return none

/-- The connections that pass every filter. An empty cache is refreshed first. -/
def listBy (run : RefreshHook → Program Unit) (filters : List ConnectionFilter) :
    Program (List Connection) := do
  let cs ← Program.act .connections
  if cs.isEmpty then refreshBy run
  let cs ← Program.act .connections
  return cs.filter fun c => filters.all (·.accepts c)

def collectBy (run : RefreshHook → Program Unit) (tests : List (Connection → Bool)) :
    Program (List Connection) := do
  let cs ← Program.act .connections
  if cs.isEmpty then refreshBy run
  let cs ← Program.act .connections
  return cs.filter fun c => tests.all (· c)

theorem listBy_eq_collectBy (run : RefreshHook → Program Unit) (filters : List ConnectionFilter) :
    listBy run filters = collectBy run (filters.map ConnectionFilter.accepts) := by
  simp only [listBy, collectBy, List.all_map]
  rfl

def get (name : String) (mayRefresh : Bool) : Program (Option Connection) :=
  getBy RefreshHook.run name mayRefresh

def list (filters : List ConnectionFilter) : Program (List Connection) :=
  listBy RefreshHook.run filters

def readyClusters : Program (List Connection) := list [.ready]

end Cache
end ClusterFleet
