import ClusterFleet.World

namespace ClusterFleet

/-- Whether the cache answers, with its turn and its hook. -/
def Action.onCache : Action → Bool
  | .lookUp _ | .insert _ | .erase _ | .clear | .connections | .refreshCount | .takeTurn | .endTurn
  | .countRefresh | .refreshHook | .hookBegins => true
  | _ => false

def Action.alters : Action → Bool
  | .insert _ | .erase _ | .clear => true
  | _ => false

/-- One that goes away passes the turn on, or gives up its place in the queue. -/
def Turn.leave (t : Turn) (task : Nat) : Turn :=
  if t.holder = some task then t.pass else { t with queue := t.queue.erase task }

structure World.SameCache (w w' : World) : Prop where
  connections : w'.connections = w.connections
  hook : w'.hook = w.hook
  refreshes : w'.refreshes = w.refreshes
  turn : w'.turn = w.turn

/-- How an action of a task may be answered. -/
inductive World.Answers (i : Nat) (w : World) (a : Action) (r : a.Reply) (w' : World) : Prop
  | cache (ha : a.onCache) (hw : w.step i a = (some r, w'))
  /-- Any reply may come from outside. -/
  | outside (ha : ¬a.onCache) (hw : w.SameCache w')

structure Task (κ ρ : Type) where
  call : κ
  rest : Program ρ

structure Crew (κ ρ : Type) where
  world : World
  tasks : Nat → Option (Task κ ρ)

inductive Event (κ : Type) where
  | began (i : Nat) (call : κ)
  | acted (i : Nat) (a : Action) (r : a.Reply)
  | waited (i : Nat)
  | dropped (i : Nat)

def Event.task : Event κ → Nat
  | .began i _ | .acted i _ _ | .waited i | .dropped i => i

namespace Crew

variable {κ ρ : Type}

def put (s : Crew κ ρ) (i : Nat) (t : Task κ ρ) (w : World) : Crew κ ρ where
  world := w
  tasks := fun j => if j = i then some t else s.tasks j

@[simp] theorem world_put (s : Crew κ ρ) (i : Nat) (t : Task κ ρ) (w : World) :
    (s.put i t w).world = w := rfl

@[simp] theorem tasks_put_self (s : Crew κ ρ) (i : Nat) (t : Task κ ρ) (w : World) :
    (s.put i t w).tasks i = some t := if_pos rfl

theorem tasks_put_of_ne (s : Crew κ ρ) {i j : Nat} (h : j ≠ i) (t : Task κ ρ) (w : World) :
    (s.put i t w).tasks j = s.tasks j := if_neg h

def idle (w : World) : Crew κ ρ := ⟨w, fun _ => none⟩

inductive Step (work : κ → Program ρ) : Crew κ ρ → Event κ → Crew κ ρ → Prop
  | begins {s : Crew κ ρ} {i : Nat} (k : κ) (h : s.tasks i = none) :
    Step work s (.began i k) (s.put i ⟨k, work k⟩ s.world)
  | acts {s : Crew κ ρ} {i : Nat} {k : κ} {a : Action} {next : a.Reply → Program ρ} {r : a.Reply}
    {w : World} (h : s.tasks i = some ⟨k, .call a next⟩) (hw : s.world.Answers i a r w) :
    Step work s (.acted i a r) (s.put i ⟨k, next r⟩ w)
  | waits {s : Crew κ ρ} {i : Nat} {k : κ} {a : Action} {next : a.Reply → Program ρ} {w : World}
    (h : s.tasks i = some ⟨k, .call a next⟩) (hw : s.world.step i a = (none, w)) :
    Step work s (.waited i) { s with world := w }
  | drops {s : Crew κ ρ} {i : Nat} {k : κ} {p : Program ρ} (h : s.tasks i = some ⟨k, p⟩)
    (hp : ∀ v, p ≠ .done v) :
    Step work s (.dropped i)
      (s.put i ⟨k, .crash⟩ { s.world with turn := s.world.turn.leave i })

/-- From one state to another by these events, the latest of them first. -/
inductive Run (work : κ → Program ρ) (start : Crew κ ρ) : List (Event κ) → Crew κ ρ → Prop
  | here : Run work start [] start
  | step {s s' : Crew κ ρ} {e : Event κ} {log : List (Event κ)} (h : Run work start log s)
    (hs : Step work s e s') : Run work start (e :: log) s'

variable {work : κ → Program ρ} {s s' start : Crew κ ρ} {e : Event κ}
  {log later : List (Event κ)}

theorem Step.tasks_of_ne (h : Step work s e s') {j : Nat} (hj : j ≠ e.task) :
    s'.tasks j = s.tasks j := by
  cases h with
  | waits => rfl
  | _ => exact tasks_put_of_ne _ hj _ _

theorem Step.call (h : Step work s e s') {i : Nat} {t : Task κ ρ} (hi : s.tasks i = some t) :
    ∃ p, s'.tasks i = some ⟨t.call, p⟩ := by
  by_cases he : i = e.task
  · subst he
    cases h with
    | begins k hn => exact absurd (hn.symm.trans hi) nofun
    | acts ht hw =>
      cases ht.symm.trans hi
      exact ⟨_, tasks_put_self _ _ _ _⟩
    | waits ht hw => exact ⟨_, hi⟩
    | drops ht hp =>
      cases ht.symm.trans hi
      exact ⟨_, tasks_put_self _ _ _ _⟩
  · exact ⟨_, (h.tasks_of_ne he).trans hi⟩

/-- How a task has come by an event to be as it is. -/
inductive Moved (work : κ → Program ρ) (s : Crew κ ρ) (i : Nat) : Event κ → Task κ ρ → Prop
  | begun (k : κ) (h : s.tasks i = none) : Moved work s i (.began i k) ⟨k, work k⟩
  | acted {k : κ} {a : Action} {next : a.Reply → Program ρ} {r : a.Reply} {w : World}
    (h : s.tasks i = some ⟨k, .call a next⟩) (hw : s.world.Answers i a r w) :
    Moved work s i (.acted i a r) ⟨k, next r⟩
  | waited {t : Task κ ρ} (h : s.tasks i = some t) : Moved work s i (.waited i) t
  | dropped {k : κ} {p : Program ρ} (h : s.tasks i = some ⟨k, p⟩) :
    Moved work s i (.dropped i) ⟨k, .crash⟩
  /-- By an event of another task. -/
  | beside {e : Event κ} {t : Task κ ρ} (he : i ≠ e.task) (h : s.tasks i = some t) :
    Moved work s i e t

theorem Step.moved (h : Step work s e s') {i : Nat} {t : Task κ ρ} (hi : s'.tasks i = some t) :
    Moved work s i e t := by
  by_cases he : i = e.task
  · subst he
    cases h with
    | begins k hn =>
      cases (tasks_put_self ..).symm.trans hi
      exact .begun k hn
    | acts ht hw =>
      cases (tasks_put_self ..).symm.trans hi
      exact .acted ht hw
    | waits ht hw => exact .waited hi
    | drops ht hp =>
      cases (tasks_put_self ..).symm.trans hi
      exact .dropped ht
  · exact .beside he ((h.tasks_of_ne he).symm.trans hi)

theorem Step.began_or (h : Step work s e s') {i : Nat} {t : Task κ ρ}
    (hi : s'.tasks i = some t) : e = .began i t.call ∨ ∃ p, s.tasks i = some ⟨t.call, p⟩ := by
  cases h.moved hi with
  | begun k _ => exact .inl rfl
  | acted ht _ | waited ht | dropped ht | beside _ ht => exact .inr ⟨_, ht⟩

theorem Step.done (h : Step work s e s') {i : Nat} {k : κ} {v : ρ}
    (hi : s.tasks i = some ⟨k, .done v⟩) :
    e.task ≠ i ∧ s'.tasks i = some ⟨k, .done v⟩ := by
  have he : e.task ≠ i := by
    rintro rfl
    cases h with
    | begins k hn => exact absurd (hn.symm.trans hi) nofun
    | acts ht hw => exact absurd (ht.symm.trans hi) nofun
    | waits ht hw => exact absurd (ht.symm.trans hi) nofun
    | drops ht hp =>
      cases ht.symm.trans hi
      exact hp v rfl
  exact ⟨he, (h.tasks_of_ne he.symm).trans hi⟩

theorem Step.crashed (h : Step work s e s') {i : Nat} {k : κ} (hi : s.tasks i = some ⟨k, .crash⟩) :
    s'.tasks i = some ⟨k, .crash⟩ := by
  by_cases he : i = e.task
  · subst he
    cases h with
    | begins k hn => exact absurd (hn.symm.trans hi) nofun
    | acts ht hw => exact absurd (ht.symm.trans hi) nofun
    | waits ht hw => exact hi
    | drops ht hp =>
      cases ht.symm.trans hi
      exact tasks_put_self _ _ _ _
  · exact (h.tasks_of_ne he).trans hi

theorem Run.trans (h : Run work start log s) (h' : Run work s later s') :
    Run work start (later ++ log) s' := by
  induction h' with
  | here => exact h
  | step _ hs ih => exact ih.step hs

theorem Run.done (h : Run work start log s) {i : Nat} {k : κ} {v : ρ}
    (hi : start.tasks i = some ⟨k, .done v⟩) :
    (∀ e ∈ log, e.task ≠ i) ∧ s.tasks i = some ⟨k, .done v⟩ := by
  induction h with
  | here => exact ⟨nofun, hi⟩
  | step _ hs ih =>
    obtain ⟨hlog, ht⟩ := ih
    obtain ⟨he, ht'⟩ := hs.done ht
    exact ⟨List.forall_mem_cons.2 ⟨he, hlog⟩, ht'⟩

theorem Run.exists_task (h : Run work start log s) (he : e ∈ log) :
    ∃ t, s.tasks e.task = some t := by
  induction h with
  | here => cases he
  | @step s s' e' log _ hs ih =>
    rcases List.mem_cons.1 he with rfl | he
    · cases hs with
      | waits ht hw => exact ⟨_, ht⟩
      | _ => exact ⟨_, tasks_put_self _ _ _ _⟩
    · obtain ⟨t, ht⟩ := ih he
      obtain ⟨p, hp⟩ := hs.call ht
      exact ⟨_, hp⟩

/-- A run is cut where its log is cut. -/
theorem Run.cut (h : Run work start (later ++ log) s') :
    ∃ s, Run work start log s ∧ Run work s later s' := by
  induction later generalizing s' with
  | nil => exact ⟨s', h, .here⟩
  | cons e later ih =>
    cases h with
    | step h hs =>
      obtain ⟨s, hlog, hlater⟩ := ih h
      exact ⟨s, hlog, hlater.step hs⟩

theorem Run.first (h : Run work start (later ++ [e]) s') :
    ∃ s, Step work start e s ∧ Run work s later s' := by
  obtain ⟨s, hfirst, hlater⟩ := h.cut
  cases hfirst with
  | step hnone hs =>
    cases hnone
    exact ⟨s, hs, hlater⟩

end Crew

namespace World

theorem stepUnder_of_onCache {a : Action} (ha : a.onCache) (faults : Faults) (i : Nat)
    (w : World) : w.stepUnder faults i a = w.step i a := by
  cases a <;> first | rfl | cases ha

theorem sameCache_guarded (w : World) (fault : Option Fault)
    (call : Store → Except StoreError α × Store) : w.SameCache (w.guarded fault call).2 := by
  cases fault <;> exact ⟨rfl, rfl, rfl, rfl⟩

theorem step_of_not_onCache {a : Action} (ha : ¬a.onCache) (i : Nat) (w : World) :
    ∃ r w', w.step i a = (some r, w') ∧ w.SameCache w' := by
  cases a with
  | findCluster name => exact ⟨_, _, rfl, w.sameCache_guarded w.faults.get (Store.find name)⟩
  | listClusters => exact ⟨_, _, rfl, w.sameCache_guarded w.faults.list Store.list⟩
  | readSecret ns name =>
    exact ⟨_, _, rfl, w.sameCache_guarded w.faults.secret (Store.secret ns name)⟩
  | writeStatus name st =>
    -- The fault comes first; only without one is the store asked.
    cases hf : w.faults.update with
    | some f => exact ⟨.error f.error, w, by simp [step, perform, hf], ⟨rfl, rfl, rfl, rfl⟩⟩
    | none =>
      refine ⟨(w.writeStatus name st).1, (w.writeStatus name st).2, ?_, ⟨rfl, rfl, rfl, rfl⟩⟩
      simp [step, perform, hf]
  | serviceHeld => exact ⟨_, _, rfl, ⟨rfl, rfl, rfl, rfl⟩⟩
  | buildClient config => exact ⟨_, _, rfl, ⟨rfl, rfl, rfl, rfl⟩⟩
  | probe c => exact ⟨_, _, rfl, ⟨rfl, rfl, rfl, rfl⟩⟩
  | now => exact ⟨_, _, rfl, ⟨rfl, rfl, rfl, rfl⟩⟩
  | sleep ms => exact ⟨_, _, rfl, ⟨rfl, rfl, rfl, rfl⟩⟩
  | _ => exact absurd rfl ha

theorem connections_step (w : World) (i : Nat) (a : Action) :
    (w.step i a).2.connections = match a with
      | .insert c => w.connections.insert c.name c
      | .erase name => w.connections.erase name
      | .clear => []
      | _ => w.connections := by
  by_cases ha : a.onCache
  · cases a <;> first | rfl | cases ha
  · obtain ⟨r, w', hw, hc⟩ := step_of_not_onCache ha i w
    rw [hw, hc.connections]
    cases a <;> first | rfl | exact absurd rfl ha

theorem hook_step (w : World) (i : Nat) (a : Action) : (w.step i a).2.hook = w.hook := by
  by_cases ha : a.onCache
  · cases a <;> first | rfl | cases ha
  · obtain ⟨r, w', hw, hc⟩ := step_of_not_onCache ha i w
    rw [hw, hc.hook]

theorem refreshes_step (w : World) (i : Nat) (a : Action) :
    (w.step i a).2.refreshes = match a with
      | .countRefresh => w.refreshes + 1
      | _ => w.refreshes := by
  by_cases ha : a.onCache
  · cases a <;> first | rfl | cases ha
  · obtain ⟨r, w', hw, hc⟩ := step_of_not_onCache ha i w
    rw [hw, hc.refreshes]
    cases a <;> first | rfl | exact absurd rfl ha

theorem turn_step (w : World) (i : Nat) (a : Action) :
    (w.step i a).2.turn = match a with
      | .takeTurn => (w.turn.take i).2
      | .endTurn => w.turn.pass
      | _ => w.turn := by
  by_cases ha : a.onCache
  · cases a <;> first | rfl | cases ha
  · obtain ⟨r, w', hw, hc⟩ := step_of_not_onCache ha i w
    rw [hw, hc.turn]
    cases a <;> first | rfl | exact absurd rfl ha

theorem Answers.sameCache {i : Nat} {w w' : World} {a : Action} {r : a.Reply}
    (h : w.Answers i a r w') : (w.step i a).2.SameCache w' := by
  cases h with
  | cache ha hw =>
    rw [hw]
    exact ⟨rfl, rfl, rfl, rfl⟩
  | outside ha hw =>
    obtain ⟨r', w'', hs, hc⟩ := step_of_not_onCache ha i w
    rw [hs]
    exact ⟨hw.connections.trans hc.connections.symm, hw.hook.trans hc.hook.symm,
      hw.refreshes.trans hc.refreshes.symm, hw.turn.trans hc.turn.symm⟩

variable {i : Nat} {w w' : World}

theorem Answers.of_lookUp {name : String} {r : Option Connection}
    (h : w.Answers i (.lookUp name) r w') : r = w.connections.find? name := by
  cases h with
  | cache _ hw => exact (Option.some.inj (congrArg Prod.fst hw)).symm
  | outside ha _ => exact absurd rfl ha

theorem Answers.of_connections {r : List Connection} (h : w.Answers i .connections r w') :
    r = w.connections.values := by
  cases h with
  | cache _ hw => exact (Option.some.inj (congrArg Prod.fst hw)).symm
  | outside ha _ => exact absurd rfl ha

theorem Answers.of_refreshHook {r : Option RefreshHook} (h : w.Answers i .refreshHook r w') :
    r = w.hook := by
  cases h with
  | cache _ hw => exact (Option.some.inj (congrArg Prod.fst hw)).symm
  | outside ha _ => exact absurd rfl ha

theorem Answers.of_refreshCount {r : UInt64} (h : w.Answers i .refreshCount r w') :
    r = w.refreshes := by
  cases h with
  | cache _ hw => exact (Option.some.inj (congrArg Prod.fst hw)).symm
  | outside ha _ => exact absurd rfl ha

theorem step_takeTurn (w : World) (i : Nat) :
    w.step i .takeTurn = (if (w.turn.take i).1 then some () else none,
      { w with turn := (w.turn.take i).2 }) := rfl

theorem Answers.of_takeTurn {r : Unit} (h : w.Answers i .takeTurn r w') :
    (w.turn.take i).1 = true := by
  cases h with
  | cache _ hw =>
    have hr := congrArg Prod.fst hw
    rw [step_takeTurn] at hr
    cases hm : (w.turn.take i).1 with
    | true => rfl
    | false => simp [hm] at hr
  | outside ha _ => exact absurd rfl ha

/-- An action is always answered, unless it is not the task's turn. -/
theorem exists_answers (w : World) (i : Nat) (a : Action)
    (h : a = .takeTurn → (w.turn.take i).1 = true) : ∃ r w', w.Answers i a r w' := by
  by_cases ha : a.onCache
  · cases a with
    | takeTurn =>
      refine ⟨(), { w with turn := (w.turn.take i).2 }, .cache ha ?_⟩
      rw [step_takeTurn, h rfl]
      rfl
    | _ => exact ⟨_, _, .cache ha rfl⟩
  · obtain ⟨r, w', _, hc⟩ := step_of_not_onCache ha i w
    exact ⟨r, w', .outside ha hc⟩

/-- All that a task waits for is its turn. -/
theorem eq_takeTurn_of_step {a : Action} (h : w.step i a = (none, w')) :
    a = .takeTurn ∧ w' = { w with turn := (w.turn.take i).2 } := by
  cases a with
  | takeTurn => exact ⟨rfl, (congrArg Prod.snd h).symm⟩
  | _ => exact absurd (Prod.mk.inj h).1 (Option.some_ne_none _)

end World

theorem Crew.Step.hook {κ ρ : Type} {work : κ → Program ρ} {s s' : Crew κ ρ} {e : Event κ}
    (h : Step work s e s') : s'.world.hook = s.world.hook := by
  cases h with
  | acts _ hw => exact hw.sameCache.hook.trans (World.hook_step ..)
  | waits _ hw =>
    obtain ⟨_, rfl⟩ := World.eq_takeTurn_of_step hw
    rfl
  | _ => rfl

/-- What a task does in the world, under whatever faults, is a step of the crew. -/
theorem Crew.step_of_stepUnder {κ ρ : Type} {work : κ → Program ρ} {s : Crew κ ρ} {i : Nat}
    {k : κ} {a : Action} {next : a.Reply → Program ρ} (h : s.tasks i = some ⟨k, .call a next⟩)
    (faults : Faults) : match s.world.stepUnder faults i a with
      | (some r, w) => Step work s (.acted i a r) (s.put i ⟨k, next r⟩ w)
      | (none, w) => Step work s (.waited i) { s with world := w } := by
  by_cases ha : a.onCache
  · rw [World.stepUnder_of_onCache ha]
    split
    · next hw => exact .acts h (.cache ha hw)
    · next hw => exact .waits h hw
  · -- The faults only change what comes from outside, where any reply will do.
    obtain ⟨r, w, hw, hc⟩ := World.step_of_not_onCache ha i { s.world with faults }
    simp only [World.stepUnder, hw]
    exact .acts h (.outside ha ⟨hc.connections, hc.hook, hc.refreshes, hc.turn⟩)

end ClusterFleet
