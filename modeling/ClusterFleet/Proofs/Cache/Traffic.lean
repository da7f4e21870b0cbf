import ClusterFleet.Proofs.Cache.Latch
import ClusterFleet.Proofs.Cache.Linearization
import ClusterFleet.Proofs.Cache.SingleFlight

namespace ClusterFleet

inductive Gate where
  | entries
  | hook
  deriving DecidableEq

def Action.guard : Action → Option (Gate × Latch.Mode)
  | .lookUp _ | .connections => some (.entries, .shared)
  | .insert _ | .erase _ | .clear => some (.entries, .exclusive)
  | .refreshHook => some (.hook, .shared)
  | _ => none

namespace Cache

inductive Phase where
  | outside
  /-- It has the turn. -/
  | inTurn
  /-- It has the turn, and runs the hook. -/
  | inHook
  deriving DecidableEq

def Phase.after : Phase → Action → Phase
  | _, .takeTurn | _, .countRefresh => .inTurn
  | _, .refreshHook => .inHook
  | _, .endTurn => .outside
  | φ, _ => φ

def Phase.Allows : Phase → Action → Prop
  | φ, .takeTurn => φ = .outside
  | φ, .refreshHook | φ, .endTurn => φ = .inTurn
  | φ, .countRefresh => φ = .inHook
  | _, _ => True

/-- The program never asks for the turn that it has, and gives it back in the end. -/
def Keeps {ρ : Type} : Phase → Program ρ → Prop
  | φ, .done _ => φ = .outside
  | _, .crash => True
  | φ, .call a next => φ.Allows a ∧ ∀ r, Keeps (φ.after a) (next r)

section
variable {ρ σ : Type} {φ : Phase} {a : Action}

theorem Phase.after_of_quiet (h : a.isTurn = false) (φ : Phase) : φ.after a = φ := by
  cases a <;> first | rfl | cases h

theorem Phase.allows_of_quiet (h : a.isTurn = false) (φ : Phase) : φ.Allows a := by
  cases a <;> trivial

theorem Phase.after_eq_outside_iff (h : φ.Allows a) (ht : a ≠ .takeTurn) (he : a ≠ .endTurn) :
    φ.after a = .outside ↔ φ = .outside := by
  cases a with
  | takeTurn => exact absurd rfl ht
  | endTurn => exact absurd rfl he
  | refreshHook =>
    obtain rfl : φ = .inTurn := h
    exact iff_of_false nofun nofun
  | countRefresh =>
    obtain rfl : φ = .inHook := h
    exact iff_of_false nofun nofun
  | _ => rfl

theorem Keeps.bind_quiet {p : Program σ} {k : σ → Program ρ} (hp : p.Quiet)
    (hk : ∀ u, Keeps φ (k u)) : Keeps φ (p >>= k) := by
  induction p with
  | done u => exact hk u
  | crash => trivial
  | call a next ih =>
    refine ⟨φ.allows_of_quiet hp.1, ?_⟩
    intro r
    rw [φ.after_of_quiet hp.1]
    exact ih r (hp.2 r)

theorem keeps_of_quiet {p : Program ρ} (hp : p.Quiet) : Keeps .outside p := by
  have h : Keeps .outside (p >>= pure) := .bind_quiet hp fun _ => rfl
  rwa [bind_pure] at h

theorem keeps_refreshBy {k : Unit → Program ρ} (hk : ∀ u, Keeps .outside (k u)) :
    Keeps .outside (refreshBy RefreshHook.run >>= k) := by
  have hcount : Keeps .inHook (toCount k) := ⟨rfl, fun _ => ⟨rfl, hk⟩⟩
  rw [refreshBy_bind]
  refine ⟨trivial, fun seen => ⟨rfl, fun _ => ⟨trivial, fun count => ?_⟩⟩⟩
  change Keeps .inTurn (if count = seen then toFetch RefreshHook.run k else toLeave k)
  split
  · refine ⟨rfl, ?_⟩
    intro hook
    cases hook with
    | none => exact hcount
    | some hook => exact .bind_quiet (quiet_run hook) fun _ => hcount
  · exact ⟨rfl, hk⟩

theorem keeps_get {name : String} {mayRefresh : Bool} {k : Option Connection → Program ρ}
    (hk : ∀ r, Keeps .outside (k r)) : Keeps .outside (get name mayRefresh >>= k) := by
  refine ⟨trivial, ?_⟩
  intro found
  cases found with
  | some c => exact hk (some c)
  | none =>
    cases mayRefresh with
    | false => exact hk none
    | true =>
      have h : Keeps .outside
          (refreshBy RefreshHook.run >>= fun _ => Program.act (.lookUp name) >>= k) :=
        keeps_refreshBy fun _ => ⟨trivial, hk⟩
      rwa [← bind_assoc] at h

theorem keeps_collectBy {tests : List (Connection → Bool)} {k : List Connection → Program ρ}
    (hk : ∀ cs, Keeps .outside (k cs)) :
    Keeps .outside (collectBy RefreshHook.run tests >>= k) := by
  have hcollect : Keeps .outside (collect tests >>= k) := ⟨trivial, fun _ => hk _⟩
  rw [collectBy_eq]
  refine ⟨trivial, ?_⟩
  intro first
  cases first with
  | nil =>
    have h : Keeps .outside (refreshBy RefreshHook.run >>= fun _ => collect tests >>= k) :=
      keeps_refreshBy fun _ => hcollect
    rwa [← bind_assoc] at h
  | cons c first => exact hcollect

end

inductive Errand where
  | add (c : Connection)
  | delete (name : String)
  | reset
  | get (name : String) (mayRefresh : Bool)
  | list (tests : List (Connection → Bool))
  | setHook (hook : RefreshHook)
  | register (settings : RegistrationSettings) (d : Descriptor)
  | unregister (name : String)
  | refresh (settings : RegistrationSettings)

inductive Rest where
  | program (p : Program Unit)
  | install (hook : RefreshHook)

abbrev Rest.finished : Rest := .program (.done ())

def Errand.rest : Errand → Rest
  | .add c => .program (Program.act (.insert c))
  | .delete name => .program (Program.act (.erase name))
  | .reset => .program (Program.act .clear)
  | .get name mayRefresh => .program do
    let _ ← Cache.get name mayRefresh
    return ()
  | .list tests => .program do
    let _ ← collectBy RefreshHook.run tests
    return ()
  | .setHook hook => .install hook
  | .register settings d => .program do
    let _ ← Registration.register settings d
    return ()
  | .unregister name => .program (Registration.unregister name)
  | .refresh settings => .program do
    let _ ← Registration.refresh settings
    return ()

def Rest.guard : Rest → Option (Gate × Latch.Mode)
  | .program (.call a _) => a.guard
  | .program _ => none
  | .install _ => some (.hook, .exclusive)

def Rest.Keeps (φ : Phase) : Rest → Prop
  | .program p => Cache.Keeps φ p
  | .install _ => φ = .outside

theorem quiet_refresh (settings : RegistrationSettings) :
    (Registration.refresh settings).Quiet := by
  refine (quiet_act rfl).bind ?_
  intro ds
  cases ds with
  | error e => trivial
  | ok ds => exact quiet_registerAll settings ds

theorem Errand.keeps_rest (k : Errand) : k.rest.Keeps .outside := by
  cases k with
  | add c => exact keeps_of_quiet (p := Program.act (.insert c)) (quiet_act rfl)
  | delete name => exact keeps_of_quiet (p := Program.act (.erase name)) (quiet_act rfl)
  | reset => exact keeps_of_quiet (p := Program.act .clear) (quiet_act rfl)
  | get name mayRefresh => exact keeps_get fun _ => rfl
  | list tests => exact keeps_collectBy fun _ => rfl
  | setHook hook => exact rfl
  | register settings d => exact Keeps.bind_quiet (quiet_register settings d) fun _ => rfl
  | unregister name => exact keeps_of_quiet (p := Registration.unregister name) (quiet_act rfl)
  | refresh settings => exact Keeps.bind_quiet (quiet_refresh settings) fun _ => rfl

structure Traffic where
  world : World
  gates : Gate → Latch
  tasks : Nat → Option Rest

inductive Move where
  | began (i : Nat) (k : Errand)
  /-- It has come through the gate that its next action needs. -/
  | entered (i : Nat)
  /-- It stands in a queue: for a gate, or for the turn. -/
  | queued (i : Nat)
  | acted (i : Nat) (a : Action) (r : a.Reply)
  | installed (i : Nat) (hook : RefreshHook)
  | crashed (i : Nat)
  | dropped (i : Nat)

def Move.task : Move → Nat
  | .began i _ | .entered i | .queued i | .acted i _ _ | .installed i _ | .crashed i
  | .dropped i => i

def Move.advances : Move → Bool
  | .entered _ | .acted _ _ _ | .installed _ _ | .crashed _ => true
  | _ => false

namespace Traffic

def idle (w : World) : Traffic := ⟨w, fun _ => {}, fun _ => none⟩

def put (s : Traffic) (i : Nat) (rest : Rest) (w : World) (gates : Gate → Latch) : Traffic where
  world := w
  gates := gates
  tasks := fun j => if j = i then some rest else s.tasks j

@[simp] theorem tasks_put_self (s : Traffic) (i : Nat) (rest : Rest) (w : World)
    (gates : Gate → Latch) : (s.put i rest w gates).tasks i = some rest := if_pos rfl

theorem tasks_put_of_ne (s : Traffic) {i j : Nat} (h : j ≠ i) (rest : Rest) (w : World)
    (gates : Gate → Latch) : (s.put i rest w gates).tasks j = s.tasks j := if_neg h

def ask (s : Traffic) (i : Nat) (g : Gate) (m : Latch.Mode) : Traffic :=
  { s with gates := fun g' => if g' = g then (s.gates g).enter i m else s.gates g' }

def go (s : Traffic) (i : Nat) (rest : Rest) (w : World) : Traffic :=
  s.put i rest w fun g => (s.gates g).leave i

def Free (s : Traffic) (i : Nat) : Prop := ∀ rest, s.tasks i = some rest → rest = .finished

inductive Step : Traffic → Move → Traffic → Prop
  | begins {s : Traffic} {i : Nat} (k : Errand) (h : s.Free i) :
    Step s (.began i k) (s.put i k.rest s.world s.gates)
  | enters {s : Traffic} {i : Nat} {rest : Rest} {g : Gate} {m : Latch.Mode}
    (h : s.tasks i = some rest) (hg : rest.guard = some (g, m)) (hout : ¬(s.gates g).Has (i, m))
    (ho : (s.gates g).IsOpen m) : Step s (.entered i) (s.ask i g m)
  | queues {s : Traffic} {i : Nat} {rest : Rest} {g : Gate} {m : Latch.Mode}
    (h : s.tasks i = some rest) (hg : rest.guard = some (g, m)) (hout : ¬(s.gates g).Has (i, m))
    (hc : ¬(s.gates g).IsOpen m) : Step s (.queued i) (s.ask i g m)
  | acts {s : Traffic} {i : Nat} {a : Action} {next : a.Reply → Program Unit} {r : a.Reply}
    {w : World} (h : s.tasks i = some (.program (.call a next)))
    (hin : ∀ g m, a.guard = some (g, m) → (i, m) ∈ (s.gates g).holders)
    (hw : s.world.Answers i a r w) : Step s (.acted i a r) (s.go i (.program (next r)) w)
  | waits {s : Traffic} {i : Nat} {next : Unit → Program Unit}
    (h : s.tasks i = some (.program (.call .takeTurn next)))
    (hw : (s.world.turn.take i).1 = false) :
    Step s (.queued i) { s with world := { s.world with turn := (s.world.turn.take i).2 } }
  | installs {s : Traffic} {i : Nat} {hook : RefreshHook} (h : s.tasks i = some (.install hook))
    (hin : (i, .exclusive) ∈ (s.gates .hook).holders) :
    Step s (.installed i hook) (s.go i .finished { s.world with hook := some hook })
  | crashes {s : Traffic} {i : Nat} (h : s.tasks i = some (.program .crash)) :
    Step s (.crashed i) (s.go i .finished { s.world with turn := s.world.turn.leave i })
  | drops {s : Traffic} {i : Nat} {rest : Rest} (h : s.tasks i = some rest)
    (hr : rest ≠ .finished) :
    Step s (.dropped i) (s.go i .finished { s.world with turn := s.world.turn.leave i })

/-- From one state to another by these moves, the latest of them first. -/
inductive Run (start : Traffic) : List Move → Traffic → Prop
  | here : Run start [] start
  | step {s s' : Traffic} {e : Move} {log : List Move} (h : Run start log s) (hs : Step s e s') :
    Run start (e :: log) s'

end Traffic

def phase (i : Nat) : List Move → Phase
  | [] => .outside
  | .acted j a _ :: log => if j = i then (phase i log).after a else phase i log
  | .crashed j :: log | .dropped j :: log => if j = i then .outside else phase i log
  | _ :: log => phase i log

theorem phase_of_ne {e : Move} {i : Nat} (h : i ≠ e.task) (log : List Move) :
    phase i (e :: log) = phase i log := by
  cases e <;> first | rfl | exact if_neg (Ne.symm h)

end Cache
end ClusterFleet
