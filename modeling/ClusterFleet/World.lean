import ClusterFleet.Cache
import ClusterFleet.Clock
import ClusterFleet.Store.ApiServer
import ClusterFleet.Store.Memory

namespace ClusterFleet

/-- Who may refresh, and who waits for it, first come first served. -/
structure Turn where
  holder : Option Nat := none
  queue : List Nat := []
  deriving DecidableEq

namespace Turn

/-- Whether the task has the turn now. One that has to wait is put in the queue once. -/
def take (t : Turn) (task : Nat) : Bool × Turn :=
  match t.holder with
  | none => (true, { t with holder := some task })
  | some h =>
    if h = task then (true, t)
    else if t.queue.contains task then (false, t)
    else (false, { t with queue := t.queue ++ [task] })

def pass (t : Turn) : Turn := ⟨t.queue.head?, t.queue.tail⟩

end Turn

inductive Fault where
  | unavailable
  | gone
  | badPayload
  deriving DecidableEq

def Fault.error : Fault → StoreError
  | .unavailable =>
    .refused ⟨"Failure", "etcdserver: request timed out", "ServiceUnavailable", 503⟩
  | .gone => .notFound "gone"
  | .badPayload => .badPayload "bad payload"

structure Faults where
  get : Option Fault := none
  list : Option Fault := none
  update : Option Fault := none
  secret : Option Fault := none
  /-- Milliseconds before each call. -/
  delay : Nat := 0

/-- Builds clients that talk to the remote clusters of the world. -/
structure ClientFactory where
  /-- Hosts for which no client is built. -/
  rejected : List String := []
  /-- The options of a factory that checks the configuration first. -/
  strict : Option ClientOptions := none

namespace ClientFactory

/-- A client that takes a configuration as it is. -/
def direct (config : RestConfig) : Client where
  kubeconfig := ⟨config.host, config.insecure, config.caData, config.bearerToken⟩
  connectTimeout := ({} : ClientOptions).connectTimeout
  readTimeout := ({} : ClientOptions).readTimeout

def build (f : ClientFactory) (config : RestConfig) : BuildOutcome :=
  if f.rejected.contains config.host then .refused (.invalidConfig "bad tls")
  else match f.strict with
    | some options => Client.build options config
    | none => .built (direct config)

end ClientFactory

inductive Store where
  | memory (m : MemoryStore)
  | server (s : ApiServer)

namespace Store

def find (name : String) : Store → Except StoreError (Option Descriptor) × Store
  | .memory m => (.ok (m.find name), .memory m)
  | .server s => let (r, s) := s.find name; (r, .server s)

def list : Store → Except StoreError (List Descriptor) × Store
  | .memory m => (.ok m.list, .memory m)
  | .server s => let (r, s) := s.list; (r, .server s)

def writeStatus (name : String) (st : Status) : Store → Except StoreError Unit × Store
  | .memory m => let (r, m) := m.writeStatus name st; (r, .memory m)
  | .server s => let (r, s) := s.writeStatus name st; (r, .server s)

def secret (ns name : String) : Store → Except StoreError (Option SecretData) × Store
  | .memory m => (.ok (m.secret ns name), .memory m)
  | .server s => let (r, s) := s.secret ns name; (r, .server s)

/-- Whether a status write leaves a trace: it was stored, or it was sent. -/
def showsWrite (r : Except StoreError Unit) : Store → Bool
  | .memory _ => r.isOk
  | .server _ => r matches .ok () || !(r matches .error .unsendable)

end Store

structure Journal where
  builds : List RestConfig := []
  probes : List Client := []
  /-- Names and statuses of all status writes, in order. -/
  writes : List (String × Status) := []

/-- The world that programs act on: the cache, a store, faults that the store may show, the factory
of clients, remote clusters and the clock. -/
structure World where
  connections : Table Connection := []
  hook : Option RefreshHook := none
  /-- How often a hook has begun. -/
  hookRuns : Nat := 0
  refreshes : UInt64 := 0
  turn : Turn := {}
  serviceHeld : Bool := true
  store : Store
  faults : Faults := {}
  factory : ClientFactory := {}
  remotes : Table Http.Answer := []
  clock : Clock
  journal : Journal := {}

namespace World

def remoteAnswer (w : World) (c : Client) : Http.Answer :=
  (w.remotes.find? c.kubeconfig.server).getD .failed

def guarded (w : World) (fault : Option Fault) (call : Store → Except StoreError α × Store) :
    Except StoreError α × World :=
  match fault with
  | some f => (.error f.error, w)
  | none => let (r, s) := call w.store; (r, { w with store := s })

/-- A status write past all faults. -/
def writeStatus (w : World) (name : String) (st : Status) : Except StoreError Unit × World :=
  let (r, s) := w.store.writeStatus name st
  let writes := if s.showsWrite r then w.journal.writes ++ [(name, st)] else w.journal.writes
  (r, { w with store := s, journal := { w.journal with writes } })

def perform (w : World) : (a : Action) → a.Reply × World
  | .lookUp name => (w.connections.find? name, w)
  | .insert c => ((), { w with connections := w.connections.insert c.name c })
  | .erase name => ((), { w with connections := w.connections.erase name })
  | .clear => ((), { w with connections := [] })
  | .connections => (w.connections.values, w)
  | .refreshCount => (w.refreshes, w)
  | .takeTurn => ((), w)
  | .endTurn => ((), { w with turn := w.turn.pass })
  | .countRefresh => ((), { w with refreshes := w.refreshes + 1 })
  | .refreshHook => (w.hook, w)
  | .hookBegins => ((), { w with hookRuns := w.hookRuns + 1 })
  | .serviceHeld => (w.serviceHeld, w)
  | .findCluster name => w.guarded w.faults.get (Store.find name)
  | .listClusters => w.guarded w.faults.list Store.list
  | .writeStatus name st =>
    match w.faults.update with
    | some f => (.error f.error, w)
    | none => w.writeStatus name st
  | .readSecret ns name => w.guarded w.faults.secret (Store.secret ns name)
  | .buildClient config =>
    (w.factory.build config,
      { w with journal := { w.journal with builds := w.journal.builds ++ [config] } })
  | .probe c =>
    (w.remoteAnswer c, { w with journal := { w.journal with probes := w.journal.probes ++ [c] } })
  | .now => let (t, c) := w.clock.read; (t, { w with clock := c })
  | .sleep _ => ((), w)

/-- One action of a task; without a reply it has to wait. -/
def step (task : Nat) (w : World) (a : Action) : Option a.Reply × World :=
  match a with
  | .takeTurn =>
    let (mine, turn) := w.turn.take task
    (if mine then some () else none, { w with turn })
  | a => let (r, w) := w.perform a; (some r, w)

def stepUnder (faults : Faults) (task : Nat) (w : World) (a : Action) : Option a.Reply × World :=
  let (r, after) := { w with faults }.step task a
  (r, { after with faults := w.faults })

/-- How many milliseconds pass between the beginning of an action and the action itself. -/
def latency (w : World) : Action → Nat
  | .findCluster _ | .listClusters | .writeStatus _ _ | .readSecret _ _ => w.faults.delay
  | _ => 0

end World

/-- Where a program stops if it does not wait for answers. -/
inductive Stop (α : Type) where
  | finished (a : α)
  | crashed
  /-- It has made a request, and goes on with the answer. -/
  | asked (rest : Program α)

namespace Program

def run (p : Program α) (w : World) : Option α × World := p.runBy World.perform w

def runToRequest : Program α → World → Stop α × World
  | .done a, w => (.finished a, w)
  | .crash, w => (.crashed, w)
  | .call act next, w =>
    let (r, w) := w.perform act
    if act.isRequest then (.asked (next r), w) else (next r).runToRequest w

/-- With nobody else acting it makes no difference where a program stops. -/
theorem run_eq_runToRequest (p : Program α) (w : World) :
    p.run w = match p.runToRequest w with
      | (.finished a, w) => (some a, w)
      | (.crashed, w) => (none, w)
      | (.asked rest, w) => rest.run w := by
  induction p generalizing w with
  | done => rfl
  | crash => rfl
  | call act next ih =>
    by_cases h : act.isRequest
    · simp [run, runBy, runToRequest, h]
    · simpa [run, runBy, runToRequest, h] using ih _ _

end Program
end ClusterFleet
