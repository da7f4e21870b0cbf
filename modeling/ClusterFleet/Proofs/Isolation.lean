import ClusterFleet.Health.Pass
import ClusterFleet.Proofs.Moment
import ClusterFleet.Proofs.Registration.Coherence

namespace ClusterFleet.Isolation
open Registration (Upholds)

inductive Job where
  | check (name : String)
  | register (d : Descriptor)
  | unregister (name : String)

def Job.cluster : Job → String
  | .check name | .unregister name => name
  | .register d => d.name

inductive Report where
  | checked (r : Except PassError PassOutcome)
  | registered (r : Except RegistrationError Unit)
  | unregistered

def Job.program (settings : RegistrationSettings) (interval : Span) : Job → Program Report
  | .check name => do return .checked (← Health.pass interval name)
  | .register d => do return .registered (← Registration.register settings d)
  | .unregister name => do
    Registration.unregister name
    return .unregistered

def goOn (build : RestConfig → BuildOutcome) (s : Crew Job Report) (m : Move) : Crew Job Report :=
  match s.tasks m.task with
  | some ⟨job, .call a next⟩ =>
    let (r, w) := s.world.respond build m.moment a
    s.put m.task ⟨job, next r⟩ w
  | _ => s

def run (build : RestConfig → BuildOutcome) (s : Crew Job Report) (moves : List Move) :
    Crew Job Report :=
  moves.foldl (goOn build) s

def begin (settings : RegistrationSettings) (interval : Span) (jobs : Nat → Option Job)
    (w : World) : Crew Job Report where
  world := w
  tasks := fun i => (jobs i).map fun job => ⟨job, job.program settings interval⟩

/-- The jobs for one cluster, each with the task that it has. -/
def only (n : String) (jobs : Nat → Option Job) (i : Nat) : Option Job :=
  (jobs i).filter (·.cluster = n)

def isFor (n : String) (jobs : Nat → Option Job) (m : Move) : Bool :=
  (only n jobs m.task).isSome

/-- The action concerns the cluster alone, or nothing that is shared. -/
def Concerns (n : String) : Action → Prop
  | .lookUp name | .erase name | .findCluster name | .writeStatus name _ => name = n
  | .insert c => c.name = n
  | .readSecret _ _ | .buildClient _ | .probe _ | .now => True
  | _ => False

def Named (a : Action) (r : a.Reply) : Prop :=
  match a, r with
  | .lookUp name, some c => c.name = name
  | _, _ => True

/-- The program concerns the cluster alone. -/
abbrev Confined {ρ : Type} (n : String) (p : Program ρ) : Prop :=
  Upholds (fun _ => True) Named (Concerns n) p

section
variable {ρ : Type} {n : String} {a : Action}

theorem confined_call {next : a.Reply → Program ρ} (ha : Concerns n a)
    (hn : ∀ r, Named a r → Confined n (next r)) : Confined n (.call a next) :=
  fun _ => ⟨ha, hn⟩

theorem confined_connect (settings : RegistrationSettings) (d : Descriptor)
    {k : Except RegistrationError Unit → Program ρ} (hk : ∀ r, Confined d.name (k r)) :
    Confined d.name (Registration.connect settings d >>= k) := by
  by_cases hs : d.spec.secretName = ""
  · simpa [Registration.connect, Registration.resolve, hs] using hk _
  · simp only [Registration.connect, Registration.resolve, hs, if_false, bind_assoc,
      Program.act_bind, Program.call_bind]
    refine confined_call trivial fun data _ => ?_
    cases data with
    | error e => exact hk _
    | ok data =>
      simp only [pure_bind]
      cases Registration.fromSecret settings d data with
      | error e => exact hk _
      | ok config =>
        simp only [Program.call_bind]
        refine confined_call trivial fun outcome _ => ?_
        cases outcome with
        | crashed => trivial
        | refused e => exact hk _
        | built client => exact confined_call rfl fun _ _ => hk _

theorem confined_register (settings : RegistrationSettings) (d : Descriptor)
    {k : Except RegistrationError Unit → Program ρ} (hk : ∀ r, Confined d.name (k r)) :
    Confined d.name (Registration.register settings d >>= k) := by
  obtain ⟨next, hp, hnone, hsome⟩ := Registration.register_bind settings d k
  rw [hp]
  refine confined_call rfl fun found hfound => ?_
  cases found with
  | none =>
    rw [hnone]
    exact confined_connect settings d hk
  | some c =>
    rw [hsome]
    split
    · exact confined_call hfound fun _ _ => hk _
    · exact confined_connect settings d hk

theorem confined_persist (cs : List Condition) (r : Except PassError PassOutcome)
    {k : Except PassError PassOutcome → Program ρ} (hk : ∀ r, Confined n (k r)) :
    Confined n (Health.persist n cs r >>= k) := by
  refine confined_call rfl fun written _ => ?_
  cases written <;> exact hk _

theorem confined_pass (interval : Span) {k : Except PassError PassOutcome → Program ρ}
    (hk : ∀ r, Confined n (k r)) : Confined n (Health.pass interval n >>= k) := by
  simp only [Health.pass, Program.act_bind, Program.call_bind]
  refine confined_call rfl fun found _ => ?_
  cases found with
  | error e => exact hk _
  | ok found =>
    cases found with
    | none => exact hk _
    | some d =>
      simp only [Program.call_bind]
      refine confined_call rfl fun c _ => ?_
      cases c with
      | none =>
        simp only [Health.recordMiss, Program.act_bind, Program.call_bind]
        exact confined_call trivial fun _ _ => confined_persist _ _ hk
      | some c =>
        simp only [Health.recordProbe, Program.act_bind, Program.call_bind]
        refine confined_call trivial fun _ _ => ?_
        exact confined_call trivial fun _ _ => confined_persist _ _ hk

theorem confined_program (settings : RegistrationSettings) (interval : Span) (job : Job) :
    Confined job.cluster (job.program settings interval) := by
  cases job with
  | check name => exact confined_pass interval fun _ => trivial
  | register d => exact confined_register settings d fun _ => trivial
  | unregister name => exact confined_call rfl fun _ _ => trivial

end

def written (mo : Moment) (m : MemoryStore) : Action → MemoryStore
  | .writeStatus name st => if mo.unwritten.isSome then m else (m.writeStatus name st).2
  | _ => m

section
variable {n : String} {w : World} {mo : Moment} {m m' : MemoryStore} {a : Action}
  {build : RestConfig → BuildOutcome}

theorem ask_memory (hs : w.store = .memory m) (reason : Option StoreError)
    {call : Store → Except StoreError α × Store} (hc : (call (.memory m)).2 = .memory m) :
    (w.ask reason call).2 = w := by
  cases reason with
  | some e => rfl
  | none =>
    simp only [World.ask, hs, hc]
    rw [← hs]

theorem store_respond (hs : w.store = .memory m) (a : Action) :
    (w.respond build mo a).2.store = .memory (written mo m a) := by
  cases a with
  | findCluster name =>
    have hw : (w.respond build mo (.findCluster name)).2 = w := ask_memory hs mo.unread rfl
    rw [hw, hs]
    rfl
  | listClusters =>
    have hw : (w.respond build mo .listClusters).2 = w := ask_memory hs mo.unlisted rfl
    rw [hw, hs]
    rfl
  | readSecret ns name =>
    have hw : (w.respond build mo (.readSecret ns name)).2 = w := ask_memory hs mo.sealed rfl
    rw [hw, hs]
    rfl
  | writeStatus name st =>
    cases hu : mo.unwritten with
    | some e => simp [World.respond, written, hu, hs]
    | none => simp [World.respond, World.writeStatus, Store.writeStatus, written, hu, hs]
  | _ => exact hs

theorem secrets_written (mo : Moment) (m : MemoryStore) (a : Action) :
    (written mo m a).secrets = m.secrets := by
  cases a with
  | writeStatus name st =>
    simp only [written, MemoryStore.writeStatus]
    split
    · rfl
    · cases m.find name <;> rfl
  | _ => rfl

theorem find_written (mo : Moment) (m : MemoryStore) (a : Action) (n : String) :
    (written mo m a).find n = match a with
      | .writeStatus name st => if name = n ∧ mo.unwritten = none then
          (m.find n).map (·.withStatus st) else m.find n
      | _ => m.find n := by
  cases a with
  | writeStatus name st =>
    cases hu : mo.unwritten with
    | some e => simp [written, hu]
    | none =>
      by_cases hn : name = n
      · subst hn
        cases hd : m.find name with
        | none => simp [written, MemoryStore.writeStatus, hu, hd]
        | some d =>
          simp [written, MemoryStore.writeStatus, hu, hd]
          exact Table.find?_insert_self ..
      · cases hd : m.find name with
        | none => simp [written, MemoryStore.writeStatus, hu, hd, hn]
        | some d =>
          simp [written, MemoryStore.writeStatus, hu, hd, hn]
          exact Table.find?_insert_of_ne (Ne.symm hn) ..
  | _ => rfl

end

/-- Two worlds with their stores in memory look the same to the tasks for a cluster. -/
structure Alike (n : String) (w w' : World) : Prop where
  entry : w.connections.find? n = w'.connections.find? n
  stores : ∃ m m', w.store = .memory m ∧ w'.store = .memory m' ∧ m.find n = m'.find n ∧
    m.secrets = m'.secrets

section
variable {n : String} {w w' : World} {a : Action} {build : RestConfig → BuildOutcome}
  {mo : Moment}

theorem Alike.refl {m : MemoryStore} (h : w.store = .memory m) : Alike n w w :=
  ⟨rfl, m, m, h, h, rfl, rfl⟩

theorem named_respond (h : Filed w.connections) : Named a (w.respond build mo a).1 := by
  cases a with
  | lookUp name =>
    cases hf : w.connections.find? name with
    | none => simp [Named, World.respond, World.perform, hf]
    | some c => simpa [Named, World.respond, World.perform, hf] using h.find? hf
  | _ => trivial

theorem Alike.aside {other : String} (h : Alike n w w') (ha : Concerns other a) (hne : other ≠ n) :
    Alike n (w.respond build mo a).2 w' := by
  obtain ⟨m, m', hm, hm', hfind, hsecrets⟩ := h.stores
  refine ⟨?_, _, m', store_respond hm a, hm', ?_, (secrets_written ..).trans hsecrets⟩
  · rw [World.connections_respond, ← h.entry]
    cases a with
    | insert c => exact Table.find?_insert_of_ne (fun hn => hne (ha.symm.trans hn.symm)) ..
    | erase name => exact Table.find?_erase_of_ne (fun hn => hne (ha.symm.trans hn.symm)) ..
    | clear => cases ha
    | _ => rfl
  · rw [find_written, ← hfind]
    cases a with
    | writeStatus name st => exact if_neg fun hn => hne (ha.symm.trans hn.1)
    | _ => rfl

theorem Alike.reply (h : Alike n w w') (ha : Concerns n a) :
    (w.respond build mo a).1 = (w'.respond build mo a).1 := by
  obtain ⟨m, m', hm, hm', hfind, hsecrets⟩ := h.stores
  cases a with
  | lookUp name =>
    obtain rfl : name = n := ha
    exact h.entry
  | findCluster name =>
    obtain rfl : name = n := ha
    cases hu : mo.unread <;> simp [World.respond, World.ask, Store.find, hu, hm, hm', hfind]
  | writeStatus name st =>
    obtain rfl : name = n := ha
    cases hu : mo.unwritten with
    | some e => simp [World.respond, hu]
    | none =>
      simp only [World.respond, World.writeStatus, Store.writeStatus, MemoryStore.writeStatus, hu,
        hm, hm', hfind]
      cases m'.find name <;> rfl
  | readSecret ns name =>
    cases hu : mo.sealed <;>
      simp [World.respond, World.ask, Store.secret, MemoryStore.secret, hu, hm, hm', hsecrets]
  | insert c => rfl
  | erase name => rfl
  | buildClient config => rfl
  | probe c => rfl
  | now => rfl
  | _ => cases ha

/-- What is done in both worlds leaves them alike. -/
theorem Alike.both (h : Alike n w w') :
    Alike n (w.respond build mo a).2 (w'.respond build mo a).2 := by
  obtain ⟨m, m', hm, hm', hfind, hsecrets⟩ := h.stores
  refine ⟨?_, _, _, store_respond hm a, store_respond hm' a, ?_, ?_⟩
  · rw [World.connections_respond, World.connections_respond]
    exact a.find?_leaves_congr h.entry
  · rw [find_written, find_written, hfind]
  · rw [secrets_written, secrets_written, hsecrets]

end

structure Together (n : String) (jobs : Nat → Option Job) (s t : Crew Job Report) : Prop where
  worlds : Alike n s.world t.world
  filed : Filed s.world.connections
  confined : ∀ i task, s.tasks i = some task →
    jobs i = some task.call ∧ Confined task.call.cluster task.rest
  tasks : ∀ i, (only n jobs i).isSome → s.tasks i = t.tasks i

section
variable {n : String} {jobs : Nat → Option Job} {s t : Crew Job Report}
  {build : RestConfig → BuildOutcome} {m : Move}

theorem goOn_of_call {job : Job} {a : Action} {next : a.Reply → Program Report}
    (h : s.tasks m.task = some ⟨job, .call a next⟩) :
    goOn build s m = s.put m.task ⟨job, next (s.world.respond build m.moment a).1⟩
      (s.world.respond build m.moment a).2 := by
  simp only [goOn, h]

theorem goOn_of_idle (h : ∀ job a next, s.tasks m.task ≠ some ⟨job, .call a next⟩) :
    goOn build s m = s := by
  unfold goOn
  split
  · next job a next ht => exact absurd ht (h job a next)
  · rfl

theorem only_isSome_iff {i : Nat} {job : Job} (h : jobs i = some job) :
    (only n jobs i).isSome ↔ job.cluster = n := by
  simp [only, h]

theorem Together.put {job : Job} {a : Action} {next : a.Reply → Program Report}
    (h : Together n jobs s t) (hi : s.tasks m.task = some ⟨job, .call a next⟩)
    {t' : Crew Job Report} (hw : Alike n (s.world.respond build m.moment a).2 t'.world)
    (ht : ∀ i, (only n jobs i).isSome → (goOn build s m).tasks i = t'.tasks i) :
    Together n jobs (goOn build s m) t' := by
  obtain ⟨hjob, hconf⟩ := h.confined _ _ hi
  rw [goOn_of_call hi] at ht ⊢
  have hfiled := h.filed.leaves a
  rw [← World.connections_respond build m.moment] at hfiled
  refine ⟨hw, hfiled, fun i task htask => ?_, ht⟩
  by_cases hm : i = m.task
  · subst hm
    rw [Crew.tasks_put_self, Option.some_inj] at htask
    subst htask
    exact ⟨hjob, (hconf trivial).2 _ (named_respond h.filed)⟩
  · rw [Crew.tasks_put_of_ne s hm] at htask
    exact h.confined i task htask

theorem Together.goes (h : Together n jobs s t) (build : RestConfig → BuildOutcome) (m : Move) :
    Together n jobs (goOn build s m) (if isFor n jobs m then goOn build t m else t) := by
  by_cases hcall : ∃ job a next, s.tasks m.task = some ⟨job, .call a next⟩
  · obtain ⟨job, a, next, hi⟩ := hcall
    obtain ⟨hjob, hconf⟩ := h.confined _ _ hi
    have hconcerns : Concerns job.cluster a := (hconf trivial).1
    have hfor : isFor n jobs m ↔ job.cluster = n := only_isSome_iff hjob
    by_cases hm : isFor n jobs m
    · -- Both runs go on, by the same action.
      rw [if_pos hm]
      obtain rfl := hfor.1 hm
      have hti : t.tasks m.task = some ⟨job, .call a next⟩ := (h.tasks _ hm) ▸ hi
      rw [goOn_of_call hti]
      refine h.put hi (h.worlds.both) fun i hi' => ?_
      rw [goOn_of_call hi]
      by_cases he : i = m.task
      · subst he
        rw [Crew.tasks_put_self, Crew.tasks_put_self, h.worlds.reply hconcerns]
      · rw [Crew.tasks_put_of_ne _ he, Crew.tasks_put_of_ne _ he]
        exact h.tasks i hi'
    · -- Only the one run goes on, with another cluster.
      rw [if_neg hm]
      have hne : job.cluster ≠ n := fun hc => hm (hfor.2 hc)
      refine h.put hi (h.worlds.aside hconcerns hne) fun i hi' => ?_
      have he : i ≠ m.task := by
        rintro rfl
        exact hm hi'
      rw [goOn_of_call hi, Crew.tasks_put_of_ne _ he]
      exact h.tasks i hi'
  · have hidle : ∀ job a next, s.tasks m.task ≠ some ⟨job, .call a next⟩ :=
      fun job a next hi => hcall ⟨job, a, next, hi⟩
    rw [goOn_of_idle hidle]
    split
    · next hm =>
      have ht := h.tasks m.task hm
      rw [goOn_of_idle fun job a next => ht ▸ hidle job a next]
      exact h
    · exact h

theorem Together.run (h : Together n jobs s t) (build : RestConfig → BuildOutcome)
    (moves : List Move) :
    Together n jobs (run build s moves) (run build t (moves.filter (isFor n jobs))) := by
  induction moves generalizing s t with
  | nil => exact h
  | cons m moves ih =>
    have hstep := ih (h.goes build m)
    by_cases hm : isFor n jobs m
    · rw [if_pos hm] at hstep
      rw [List.filter_cons_of_pos hm]
      exact hstep
    · rw [if_neg hm] at hstep
      rw [List.filter_cons_of_neg hm]
      exact hstep

theorem together_begin (settings : RegistrationSettings) (interval : Span) (n : String)
    (jobs : Nat → Option Job) {w : World} {m : MemoryStore} (hm : w.store = .memory m)
    (hw : Filed w.connections) : Together n jobs (begin settings interval jobs w)
      (begin settings interval (only n jobs) w) := by
  refine ⟨.refl hm, hw, fun i task htask => ?_, fun i hi => ?_⟩
  · obtain ⟨job, hjob, rfl⟩ := Option.map_eq_some_iff.1 htask
    exact ⟨hjob, confined_program settings interval job⟩
  · obtain ⟨job, hjob⟩ := Option.isSome_iff_exists.1 hi
    have hall : jobs i = some job := (Option.filter_eq_some_iff.1 hjob).1
    simp [begin, hjob, hall]

end

/--
However the tasks take turns, and whatever the remote clusters answer each time and the store fails
at: how far a task for the cluster `n` has come and what it has reported, the connection of `n` and
its stored descriptor are what they are when the tasks for `n` alone make their moves, in the same
order and at the same moments.
-/
theorem alone_of_run (settings : RegistrationSettings) (interval : Span)
    (build : RestConfig → BuildOutcome) (jobs : Nat → Option Job) (moves : List Move) (n : String)
    {w : World} {m : MemoryStore} (hm : w.store = .memory m) (hw : Filed w.connections) :
    let s := run build (begin settings interval jobs w) moves
    let t := run build (begin settings interval (only n jobs) w)
      (moves.filter (isFor n jobs))
    (∀ i job, jobs i = some job → job.cluster = n → s.tasks i = t.tasks i) ∧
      s.world.connections.find? n = t.world.connections.find? n ∧
      (s.world.store.find n).1 = (t.world.store.find n).1 := by
  intro s t
  have h : Together n jobs s t := (together_begin settings interval n jobs hm hw).run build moves
  obtain ⟨m₁, m₂, hs, ht, hfind, _⟩ := h.worlds.stores
  refine ⟨fun i job hjob hn => h.tasks i ((only_isSome_iff hjob).2 hn), h.worlds.entry, ?_⟩
  rw [hs, ht, Store.find, Store.find, hfind]

def village : World where
  store := .memory ((({} : MemoryStore).put Registration.newcomer).putSecret "members" "west-token"
    [("token", "secret")])
  clock := { start := ⟨0, 0⟩ }

def neighbours : Nat → Option Job
  | 0 => some (.register Registration.newcomer)
  | 1 => some (.unregister "east")
  | 2 => some (.check "west")
  | _ => none

def buildDirect (config : RestConfig) : BuildOutcome := .built (ClientFactory.direct config)

/-- The body that a cluster answers with is another one each time. -/
def turns : List Move :=
  [0, 2, 0, 1, 0, 0, 2, 2, 2, 2].zipIdx.map fun (i, k) => {
    task := i
    moment := {
      answer := fun _ => .response 200 (if k = 7 then [111, 107] else [])
      reading := ⟨k, 0⟩ } }

theorem alone_neighbours :
    (∃ m, village.store = .memory m) ∧ Filed village.connections ∧
    let s := run buildDirect (begin {} (.ofSeconds 10) neighbours village) turns
    let t := run buildDirect (begin {} (.ofSeconds 10) (only "west" neighbours) village)
      (turns.filter (isFor "west" neighbours))
    (s.tasks 2).map (·.rest) = some (.done (.checked (.ok (.requeueAfter (.ofSeconds 10))))) ∧
      s.tasks 2 = t.tasks 2 ∧
      s.world.connections.find? "west" = t.world.connections.find? "west" ∧
      (s.world.store.find "west").1 = (t.world.store.find "west").1 := by
  have hw : Filed village.connections := nofun
  refine ⟨⟨_, rfl⟩, hw, ?_⟩
  obtain ⟨ht, he, hs⟩ := alone_of_run {} (.ofSeconds 10) buildDirect neighbours turns "west" rfl hw
  exact ⟨rfl, ht 2 _ rfl rfl, he, hs⟩

end ClusterFleet.Isolation
