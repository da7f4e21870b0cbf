import ClusterFleet.Operator.Part
import ClusterFleet.World

namespace ClusterFleet

/-- What the parts of one operator share besides the API server. -/
structure Equipment where
  connections : Table Connection := []
  factory : ClientFactory
  /-- It reaches no remote cluster, and nobody sees what it does. -/
  isolated : Bool

inductive Launch where
  | registration
  | health
  /-- Both parts, with equipment of their own. -/
  | all

/-- The operator at work. Its parts are registration watches and health controllers, each with a
watch of its own. Time passes in milliseconds, from one thing that is due to the next. -/
structure Operator where
  settings : Settings
  world : World
  equipment : List Equipment
  parts : List Part := []
  jobs : Nat := 0
  time : Nat := 0
  round : Nat := 0
  /-- Status writes are seen by the watches. -/
  echoes : Bool := true

namespace Operator

def server? (o : Operator) : Option ApiServer :=
  match o.world.store with
  | .server s => some s
  | .memory _ => none

def withServer (o : Operator) (s : ApiServer) : Operator :=
  { o with world := { o.world with store := .server s } }

def onServer (f : ApiServer → ApiServer) (o : Operator) : Operator :=
  match o.server? with
  | some s => o.withServer (f s)
  | none => o

def send (e : WatchEvent) (o : Operator) : Operator :=
  { o with parts := o.parts.map fun p => { p with watch := p.watch.send e } }

def closeWatches (o : Operator) : Operator :=
  { o with parts := o.parts.map fun p => { p with watch := p.watch.close } }

def sendObject (event : Descriptor → WatchEvent) (name : String) (o : Operator) : Operator :=
  match o.server? with
  | none => o
  | some s =>
    match s.cluster? name with
    | some j => o.send (WatchEvent.aboutObject event j)
    | none => o

def put (j : Json) (o : Operator) : Operator :=
  match o.server? with
  | none => o
  | some s =>
    let o := o.withServer (s.put j)
    if s.namespaceOf j = s.watched then o.sendObject .applied (ApiServer.nameOf j) else o

def remove (name : String) (o : Operator) : Operator := o.onServer (·.remove name)

def delete (name : String) (o : Operator) : Operator := (o.sendObject .deleted name).remove name

def worldWith (o : Operator) (e : Equipment) : World :=
  { o.world with
    connections := e.connections
    factory := e.factory
    remotes := if e.isolated then [] else o.world.remotes }

/-- Runs a program up to its next request with the equipment of a part. -/
def perform (o : Operator) (index : Nat) (p : Program α) : Stop α × Operator :=
  match o.equipment[index]? with
  | none => (.crashed, o)
  | some e =>
    let (r, w) := p.runToRequest (o.worldWith e)
    let journal := if e.isolated then { o.world.journal with writes := w.journal.writes }
      else w.journal
    (r, { o with
      world := { w with remotes := o.world.remotes, journal }
      equipment := o.equipment.set index { e with connections := w.connections } })

/-- Runs a program; when it writes the status of `name`, the watches see it. -/
def performWriting (o : Operator) (index : Nat) (name : String) (p : Program α) :
    Stop α × Operator :=
  let revision := o.server?.map (·.revision)
  let (r, o) := o.perform index p
  if o.echoes && o.server?.map (·.revision) ≠ revision then (r, o.sendObject .applied name)
  else (r, o)

def addPart (o : Operator) (duty : Duty) (equipment resumeAt : Nat) : Operator :=
  let watch : Watch := { objectsOnly := duty matches .health .., resumeAt }
  let part : Part := { duty, equipment, job := o.jobs, watch }
  { o with parts := o.parts ++ [part] }

/-- Starts a job. With equipment of its own, the first list it asks for is answered late: that is
the one of its health controller. -/
def launch (delay : Nat) (o : Operator) (l : Launch) : Operator :=
  let started := match l with
    | .registration => o.addPart (.registration none) 0 o.time
    | .health => o.addPart (.health {} []) 0 o.time
    | .all =>
      let own := o.equipment.length
      let equipment : Equipment :=
        { factory := { strict := some o.settings.client }, isolated := true }
      let o := { o with equipment := o.equipment ++ [equipment] }
      (o.addPart (.registration none) own o.time).addPart (.health {} []) own (o.time + delay)
  { started with jobs := o.jobs + 1 }

def finished (o : Operator) : Nat :=
  ((o.parts.filter (·.ended)).map (·.job)).eraseDups.length

def setPart (o : Operator) (i : Nat) (f : Part → Part) : Operator :=
  { o with parts := o.parts.modify i f }

def changePart (o : Operator) (i : Nat) (f : Part → Option Part) : Operator :=
  o.setPart i fun p => (f p).getD { p with ended := true }

def endPart (o : Operator) (i : Nat) : Operator := o.changePart i fun _ => none

/-- What was asked for by a request can be handled in the next round. -/
def readWatch (o : Operator) (i : Nat) (p : Part) : Operator :=
  match o.server? with
  | none => o.endPart i
  | some s =>
    let (inbox, watch, after) := p.watch.next o.time s
    let round := if after.received.length = s.received.length then o.round else o.round + 1
    (o.withServer after).setPart i fun p => { p with watch, inbox, round }

def register (o : Operator) (i : Nat) (p : Part) (r : Program Unit) : Operator :=
  match o.perform p.equipment r with
  | (.finished (), o) => o.setPart i (·.withDuty (.registration none))
  | (.asked rest, o) =>
    o.setPart i fun p => { p with duty := .registration (some rest), round := o.round + 1 }
  | (.crashed, o) => o.endPart i

def takeNotices (o : Operator) (i : Nat) (p : Part) : Operator :=
  let emptied := o.setPart i fun p => { p with inbox := [] }
  match p.duty with
  | .registration _ =>
    emptied.register i p (Registration.follow o.settings.registration p.inbox)
  | .health a visits => emptied.changePart i fun part =>
    (p.inbox.foldlM (fun a n => Agenda.note a o.time n) a).map fun a =>
      part.withDuty (.health a visits)

def visit (o : Operator) (i : Nat) (p : Part) (v : Visit) : Operator :=
  match o.performWriting p.equipment v.name v.rest with
  | (.finished (plan, _), o) => o.changePart i (·.finishVisit v.key o.time plan)
  | (.asked rest, o) => o.setPart i (·.keepVisit { v with round := o.round + 1, rest })
  | (.crashed, o) => o.endPart i

/-- An object that is not known any more is struck off. -/
def beginVisit (o : Operator) (i : Nat) (p : Part) (k : ObjectKey) : Operator :=
  match p.duty with
  | .registration _ => o
  | .health a visits =>
    let o := o.setPart i (·.withDuty (.health (a.strike k) visits))
    match a.known.find? k with
    | none => o
    | some d => o.visit i p {
        key := k, name := d.name, round := o.round
        rest := Health.reconcile o.settings.healthCheckInterval d }

/-- The part that comes first with its errand; of several the one that was started first. -/
def next? (o : Operator) : Option (Nat × Turnout) :=
  (o.parts.zipIdx.flatMap fun (p, i) =>
    (p.errands o.time).map fun x => (i, x.notBefore o.time o.round)).foldl (fun best x =>
      match best with
      | none => some x
      | some b => if x.2.isBefore b.2 then some x else some b) none

/-- At a new time rounds begin again. -/
def setTime (o : Operator) (time : Nat) : Operator :=
  if time = o.time then o
  else { o with time, round := 0, parts := o.parts.map Part.restart }

def run (o : Operator) (i : Nat) (x : Turnout) : Operator :=
  let o := { o.setTime x.time with round := x.round }
  match o.parts[i]? with
  | none => o
  | some p =>
    match x.errand with
    | .readWatch => o.readWatch i p
    | .takeNotices => o.takeNotices i p
    | .register r => o.register i p r
    | .beginVisit k => o.beginVisit i p k
    | .visit v => o.visit i p v

/-- Runs errands up to a time, those at the present time in any case. -/
def runFor : Nat → Nat → Operator → Operator
  | 0, _, o => o
  | fuel + 1, until_, o =>
    match o.next? with
    | none => o
    | some (i, x) =>
      if x.time < until_ || x.time = o.time then runFor fuel until_ (o.run i x) else o

/-- More errands than there are between two changes from outside. -/
def patience : Nat := 1000000

def pass (ms : Nat) (o : Operator) : Operator :=
  (runFor patience (o.time + ms) o).setTime (o.time + ms)

end Operator
end ClusterFleet
