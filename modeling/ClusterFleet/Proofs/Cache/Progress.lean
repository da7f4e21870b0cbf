import ClusterFleet.Proofs.Cache.Traffic

namespace ClusterFleet.Cache.Traffic

def AtTurn (s : Traffic) (i : Nat) : Prop :=
  ∃ next, s.tasks i = some (.program (.call .takeTurn next))

structure Invariant (log : List Move) (s : Traffic) : Prop where
  turn : s.world.turn.WellFormed
  gates : ∀ g, (s.gates g).WellFormed
  /-- Whoever is at a gate needs it for what it does next. -/
  guarded : ∀ g x, (s.gates g).Has x →
    ∃ rest, s.tasks x.1 = some rest ∧ rest.guard = some (g, x.2)
  unbegun : ∀ i, s.tasks i = none → phase i log = .outside
  keeps : ∀ i rest, s.tasks i = some rest → rest.Keeps (phase i log)
  inside : ∀ i, phase i log ≠ .outside → s.world.turn.holder = some i
  outside : ∀ i, phase i log = .outside → ¬s.AtTurn i → s.world.turn.Outside i

section
variable {s s' : Traffic} {e : Move} {log : List Move} {i j : Nat} {rest : Rest} {w : World}

theorem Invariant.phase_of_free (h : Invariant log s) (hi : s.Free i) :
    phase i log = .outside := by
  cases ht : s.tasks i with
  | none => exact h.unbegun i ht
  | some rest =>
    obtain rfl := hi rest ht
    exact h.keeps i _ ht

theorem not_atTurn_of_free (hi : s.Free i) : ¬s.AtTurn i := by
  rintro ⟨next, ht⟩
  cases hi _ ht

/-- What a move of another task has left of the turn. -/
structure Beside (t t' : Turn) (j : Nat) : Prop where
  outside : t.Outside j → t'.Outside j
  holder : t.holder = some j → t'.holder = some j

theorem Beside.refl (t : Turn) (j : Nat) : Beside t t j := ⟨id, id⟩

theorem Invariant.put (h : Invariant log s) (hi : e.task = i) {gates : Gate → Latch}
    (hgates : ∀ g, (gates g).WellFormed)
    (hleft : ∀ g x, (gates g).Has x → (s.gates g).Has x ∧ x.1 ≠ i) (hturn : w.turn.WellFormed)
    (hbeside : ∀ j, j ≠ i → Beside s.world.turn w.turn j)
    (hkeeps : rest.Keeps (phase i (e :: log)))
    (hinside : phase i (e :: log) ≠ .outside → w.turn.holder = some i)
    (houtside : phase i (e :: log) = .outside → w.turn.Outside i) :
    Invariant (e :: log) (s.put i rest w gates) := by
  subst hi
  refine ⟨hturn, hgates, ?_, ?_, ?_, ?_, ?_⟩
  · -- Whoever is at a gate is another task, and that one has not moved.
    intro g x hx
    obtain ⟨hx, hne⟩ := hleft g x hx
    rw [s.tasks_put_of_ne hne]
    exact h.guarded g x hx
  · intro j hj
    by_cases hji : j = e.task
    · subst hji
      rw [tasks_put_self] at hj
      cases hj
    · rw [phase_of_ne hji]
      rw [s.tasks_put_of_ne hji] at hj
      exact h.unbegun j hj
  · intro j rest' hj
    by_cases hji : j = e.task
    · subst hji
      rw [tasks_put_self, Option.some_inj] at hj
      exact hj ▸ hkeeps
    · rw [phase_of_ne hji]
      rw [s.tasks_put_of_ne hji] at hj
      exact h.keeps j rest' hj
  · intro j hj
    by_cases hji : j = e.task
    · subst hji
      exact hinside hj
    · rw [phase_of_ne hji] at hj
      exact (hbeside j hji).holder (h.inside j hj)
  · intro j hj hat
    by_cases hji : j = e.task
    · subst hji
      exact houtside hj
    · rw [phase_of_ne hji] at hj
      refine (hbeside j hji).outside (h.outside j hj ?_)
      rintro ⟨next, ht⟩
      exact hat ⟨next, (s.tasks_put_of_ne hji ..).trans ht⟩

theorem Invariant.go (h : Invariant log s) (hi : e.task = i) (hturn : w.turn.WellFormed)
    (hbeside : ∀ j, j ≠ i → Beside s.world.turn w.turn j)
    (hkeeps : rest.Keeps (phase i (e :: log)))
    (hinside : phase i (e :: log) ≠ .outside → w.turn.holder = some i)
    (houtside : phase i (e :: log) = .outside → w.turn.Outside i) :
    Invariant (e :: log) (s.go i rest w) :=
  h.put hi (fun g => (h.gates g).leave i) (fun _ _ => Latch.has_leave.1) hturn hbeside hkeeps
    hinside houtside

theorem Invariant.begins (h : Invariant log s) (k : Errand) (hi : s.Free i) :
    Invariant (.began i k :: log) (s.put i k.rest s.world s.gates) := by
  have hphase := h.phase_of_free hi
  refine h.put rfl h.gates ?_ h.turn (fun j _ => .refl _ j) ?_ (absurd hphase) ?_
  · rintro g x hx
    refine ⟨hx, ?_⟩
    rintro rfl
    obtain ⟨rest, ht, hg⟩ := h.guarded g x hx
    obtain rfl := hi rest ht
    cases hg
  · change k.rest.Keeps (phase i log)
    rw [hphase]
    exact k.keeps_rest
  · exact fun _ => h.outside i hphase (not_atTurn_of_free hi)

theorem Invariant.ask (h : Invariant log s) {g : Gate} {m : Latch.Mode} (ht : s.tasks i = some rest)
    (hg : rest.guard = some (g, m)) (he : ∀ j, phase j (e :: log) = phase j log) :
    Invariant (e :: log) (s.ask i g m) := by
  refine ⟨h.turn, ?_, ?_, ?_, ?_, ?_, ?_⟩
  · intro g'
    by_cases hg' : g' = g
    · subst hg'
      simpa [Traffic.ask] using (h.gates g').enter i m
    · simpa [Traffic.ask, hg'] using h.gates g'
  · intro g' x hx
    by_cases hg' : g' = g
    · subst hg'
      simp only [Traffic.ask, if_true] at hx
      rcases Latch.has_enter.1 hx with hx | rfl
      · exact h.guarded g' x hx
      · exact ⟨rest, ht, hg⟩
    · simp only [Traffic.ask, if_neg hg'] at hx
      exact h.guarded g' x hx
  · intro j
    rw [he]
    exact h.unbegun j
  · intro j
    rw [he]
    exact h.keeps j
  · intro j
    rw [he]
    exact h.inside j
  · intro j
    rw [he]
    exact h.outside j

theorem Invariant.waits (h : Invariant log s) {next : Unit → Program Unit}
    (ht : s.tasks i = some (.program (.call .takeTurn next))) :
    Invariant (.queued i :: log)
      { s with world := { s.world with turn := (s.world.turn.take i).2 } } := by
  have hphase : phase i log = .outside := (h.keeps i _ ht).1
  refine ⟨h.turn.take i, h.gates, h.guarded, h.unbegun, h.keeps, ?_, ?_⟩
  · intro j hj
    exact Turn.holder_take (h.inside j hj) i
  · intro j hj hat
    refine (h.outside j hj hat).take ?_
    rintro rfl
    exact hat ⟨next, ht⟩

theorem Invariant.acts (h : Invariant log s) {a : Action} {r : a.Reply}
    {next : a.Reply → Program Unit} (ht : s.tasks i = some (.program (.call a next)))
    (hw : s.world.Answers i a r w) :
    Invariant (.acted i a r :: log) (s.go i (.program (next r)) w) := by
  obtain ⟨hallow, hnext⟩ := h.keeps i _ ht
  have hphase : phase i (.acted i a r :: log) = (phase i log).after a := if_pos rfl
  have hkeeps : (Rest.program (next r)).Keeps (phase i (.acted i a r :: log)) := hphase ▸ hnext r
  have hturn : w.turn = _ := hw.sameCache.turn.trans (World.turn_step ..)
  by_cases htake : a = .takeTurn
  · subst htake
    refine h.go rfl (hturn ▸ h.turn.take i) ?_ hkeeps ?_ ?_
    · intro j hj
      rw [hturn]
      exact ⟨fun ho => ho.take hj, fun hh => Turn.holder_take hh i⟩
    · rw [hturn]
      exact fun _ => Turn.holder_of_take hw.of_takeTurn
    · rw [hphase]
      nofun
  by_cases hend : a = .endTurn
  · subst hend
    have hhold : s.world.turn.holder = some i := by
      apply h.inside
      rw [show phase i log = .inTurn from hallow]
      nofun
    refine h.go rfl (hturn ▸ h.turn.pass) ?_ hkeeps ?_ ?_
    · intro j hj
      rw [hturn]
      exact ⟨fun ho => .pass ho.queue,
        fun hh => absurd (Option.some.inj (hh.symm.trans hhold)) hj⟩
    · rw [hphase]
      exact absurd rfl
    · rw [hturn]
      exact fun _ => .pass (h.turn.apart i hhold)
  · -- Whatever else it does, the turn stays where it is.
    have hsame : w.turn = s.world.turn := by
      rw [hturn]
      cases a <;> first | rfl | exact absurd rfl htake | exact absurd rfl hend
    have hiff : phase i (.acted i a r :: log) = .outside ↔ phase i log = .outside := by
      rw [hphase]
      exact Phase.after_eq_outside_iff hallow htake hend
    refine h.go rfl (hsame ▸ h.turn) (fun j _ => hsame ▸ .refl _ j) hkeeps ?_ ?_
    · rw [hsame]
      exact fun hne => h.inside i fun ho => hne (hiff.2 ho)
    · rw [hsame]
      intro ho
      refine h.outside i (hiff.1 ho) ?_
      rintro ⟨next', ht'⟩
      cases ht.symm.trans ht'
      exact htake rfl

theorem Invariant.ends (h : Invariant log s) (hi : e.task = i)
    (hphase : phase i (e :: log) = .outside) :
    Invariant (e :: log) (s.go i .finished { s.world with turn := s.world.turn.leave i }) := by
  refine h.go hi (h.turn.leave i) ?_ hphase (absurd hphase) fun _ => .leave_self h.turn i
  intro j hj
  exact ⟨fun ho => ho.leave i, fun hh => Turn.holder_leave hh hj⟩

theorem Invariant.installs (h : Invariant log s) {hook : RefreshHook}
    (ht : s.tasks i = some (.install hook)) :
    Invariant (.installed i hook :: log) (s.go i .finished { s.world with hook := some hook }) := by
  have hphase : phase i log = .outside := h.keeps i _ ht
  refine h.go rfl h.turn (fun j _ => .refl _ j) hphase (absurd hphase) ?_
  intro _
  apply h.outside i hphase
  rintro ⟨next, ht'⟩
  cases ht.symm.trans ht'

theorem Invariant.step (h : Invariant log s) (hs : Step s e s') : Invariant (e :: log) s' := by
  cases hs with
  | begins k hi => exact h.begins k hi
  | enters ht hg => exact h.ask ht hg fun _ => rfl
  | queues ht hg => exact h.ask ht hg fun _ => rfl
  | acts ht _ hw => exact h.acts ht hw
  | waits ht _ => exact h.waits ht
  | installs ht _ => exact h.installs ht
  | crashes _ => exact h.ends rfl (if_pos rfl)
  | drops _ _ => exact h.ends rfl (if_pos rfl)

theorem invariant_of_run {start : World} (hturn : start.turn = {}) (h : Run (.idle start) log s) :
    Invariant log s := by
  induction h with
  | here =>
    refine ⟨hturn ▸ Turn.wellFormed_idle, fun _ => Latch.wellFormed_idle, ?_, fun _ _ => rfl, nofun,
      fun _ h => absurd rfl h, fun i _ _ => hturn ▸ Turn.outside_idle i⟩
    rintro g x (hx | hx) <;> cases hx
  | step _ hs ih => exact ih.step hs

end

inductive Lock where
  | gate (g : Gate)
  | turn

def Holds (s : Traffic) (i : Nat) : Lock → Prop
  | .gate g => ∃ m, (i, m) ∈ (s.gates g).holders
  | .turn => s.world.turn.holder = some i

/-- The task needs the lock for what it does next, and does not get it now. -/
def WaitsFor (s : Traffic) (i : Nat) : Lock → Prop
  | .gate g => ∃ rest m, s.tasks i = some rest ∧ rest.guard = some (g, m) ∧
    (i, m) ∉ (s.gates g).holders ∧ ¬(s.gates g).IsOpen m
  | .turn => s.AtTurn i ∧ (s.world.turn.take i).1 = false

section
variable {s : Traffic} {log : List Move} {i : Nat} {rest : Rest} {g : Gate} {m : Latch.Mode}

theorem inside_or_enters (ht : s.tasks i = some rest) (hg : rest.guard = some (g, m))
    (hw : ¬s.WaitsFor i (.gate g)) :
    (i, m) ∈ (s.gates g).holders ∨ ∃ s', Step s (.entered i) s' := by
  by_cases hin : (i, m) ∈ (s.gates g).holders
  · exact .inl hin
  · have ho : (s.gates g).IsOpen m := by
      by_contra hc
      exact hw ⟨rest, m, ht, hg, hin, hc⟩
    refine .inr ⟨_, .enters ht hg ?_ ho⟩
    rintro (h | h)
    · exact hin h
    · rw [ho.1] at h
      cases h

theorem exists_step (hi : ¬s.Free i) (hw : ∀ x, ¬s.WaitsFor i x) :
    ∃ e s', Step s e s' ∧ e.task = i ∧ e.advances := by
  obtain ⟨rest, ht, hr⟩ : ∃ rest, s.tasks i = some rest ∧ rest ≠ .finished := by
    simpa [Free] using hi
  cases rest with
  | install hook =>
    rcases inside_or_enters ht rfl (hw _) with hin | ⟨s', hs⟩
    · exact ⟨_, _, .installs ht hin, rfl, rfl⟩
    · exact ⟨_, s', hs, rfl, rfl⟩
  | program p =>
    cases p with
    | done u => exact absurd rfl hr
    | crash => exact ⟨_, _, .crashes ht, rfl, rfl⟩
    | call a next =>
      -- What needs a gate is done inside. Who is not inside yet does not wait, and so can enter.
      by_cases hin : ∀ g m, a.guard = some (g, m) → (i, m) ∈ (s.gates g).holders
      · have htake : a = .takeTurn → (s.world.turn.take i).1 = true := by
          rintro rfl
          by_contra hf
          exact hw .turn ⟨⟨next, ht⟩, Bool.eq_false_iff.2 hf⟩
        obtain ⟨r, w, hans⟩ := s.world.exists_answers i a htake
        exact ⟨_, _, .acts ht hin hans, rfl, rfl⟩
      · push Not at hin
        obtain ⟨g, m, hg, hout⟩ := hin
        obtain ⟨s', hs⟩ := (inside_or_enters ht hg (hw _)).resolve_left hout
        exact ⟨_, s', hs, rfl, rfl⟩

theorem Invariant.not_free_of_holder (h : Invariant log s) (hh : s.world.turn.holder = some i) :
    ¬s.Free i :=
  fun hi => (h.outside i (h.phase_of_free hi) (not_atTurn_of_free hi)).holder hh

/-- Whoever waits, waits for another one. -/
theorem Invariant.exists_holder (h : Invariant log s) {x : Lock} (hw : s.WaitsFor i x) :
    ∃ j, j ≠ i ∧ ¬s.Free j ∧ s.Holds j x := by
  cases x with
  | gate g =>
    obtain ⟨rest, m, ht, hg, hout, hc⟩ := hw
    obtain ⟨⟨j, m'⟩, hj⟩ := (h.gates g).exists_holder hc
    obtain ⟨rest', ht', hg'⟩ := h.guarded g _ (.inl hj)
    refine ⟨j, ?_, ?_, m', hj⟩
    · rintro rfl
      cases ht.symm.trans ht'
      cases hg.symm.trans hg'
      exact hout hj
    · -- A task that is through has nothing to be at a gate for.
      intro hfree
      obtain rfl := hfree rest' ht'
      cases hg'
  | turn =>
    obtain ⟨_, htake⟩ := hw
    have hother : ∃ j, j ≠ i ∧ s.world.turn.holder = some j := by
      rcases Turn.take_cases s.world.turn i with ⟨_, he⟩ | ⟨_, he⟩ | ⟨hj, _⟩ | ⟨hj, _⟩
      · simp [he] at htake
      · simp [he] at htake
      · exact hj
      · exact hj
    obtain ⟨j, hne, hh⟩ := hother
    exact ⟨j, hne, h.not_free_of_holder hh, hh⟩

theorem Invariant.not_waitsFor_of_inside (h : Invariant log s)
    (hin : (i, m) ∈ (s.gates g).holders) (x : Lock) : ¬s.WaitsFor i x := by
  obtain ⟨rest, ht, hg⟩ := h.guarded g _ (.inl hin)
  cases x with
  | gate g' =>
    rintro ⟨rest', m', ht', hg', hout, _⟩
    cases ht.symm.trans ht'
    cases hg.symm.trans hg'
    exact hout hin
  | turn =>
    rintro ⟨⟨next, ht'⟩, _⟩
    cases ht.symm.trans ht'
    cases hg

theorem Invariant.exists_not_waitsFor (h : Invariant log s) (hi : ¬s.Free i) :
    ∃ j, ¬s.Free j ∧ ∀ x, ¬s.WaitsFor j x := by
  have hgate : ∀ k g, s.WaitsFor k (.gate g) → ∃ j, ¬s.Free j ∧ ∀ x, ¬s.WaitsFor j x := by
    intro k g hk
    obtain ⟨j, _, hfree, m, hj⟩ := h.exists_holder hk
    exact ⟨j, hfree, h.not_waitsFor_of_inside hj⟩
  by_cases hw : ∃ x, s.WaitsFor i x
  · obtain ⟨x, hx⟩ := hw
    cases x with
    | gate g => exact hgate i g hx
    | turn =>
      -- Whoever has the turn waits for a gate at most.
      obtain ⟨j, _, hfree, hh⟩ := h.exists_holder hx
      by_cases hj : ∃ g, s.WaitsFor j (.gate g)
      · obtain ⟨g, hg⟩ := hj
        exact hgate j g hg
      · refine ⟨j, hfree, ?_⟩
        rintro (g | _) hx
        · exact hj ⟨g, hx⟩
        · obtain ⟨_, htake⟩ := hx
          rw [Turn.take_of_holder hh] at htake
          cases htake
  · exact ⟨i, hi, not_exists.1 hw⟩

end

/-- No tasks ever block each other for good, and no task blocks itself. -/
structure Flowing (log : List Move) (s : Traffic) : Prop where
  /-- As long as some task has something to do, there is one that waits for no lock and gets on. -/
  flows : ∀ i, ¬s.Free i → ∃ j, ¬s.Free j ∧ (∀ x, ¬s.WaitsFor j x) ∧
    ∃ e s', Step s e s' ∧ e.task = j ∧ e.advances
  held : ∀ i x, s.WaitsFor i x → ∃ j, j ≠ i ∧ ¬s.Free j ∧ s.Holds j x
  alone : ∀ g, Latch.Alone (s.gates g).holders
  /-- Before it has given the turn back, a task does not ask for it: not even from the hook. -/
  apart : ∀ i, phase i log ≠ .outside →
    s.Holds i .turn ∧ ¬s.AtTurn i ∧ i ∉ s.world.turn.queue

theorem flowing_of_run {start : World} {log : List Move} {s : Traffic} (hturn : start.turn = {})
    (h : Run (.idle start) log s) : Flowing log s := by
  have hinv := invariant_of_run hturn h
  refine ⟨?_, fun i x => hinv.exists_holder, fun g => (hinv.gates g).alone, ?_⟩
  · intro i hi
    obtain ⟨j, hfree, hw⟩ := hinv.exists_not_waitsFor hi
    exact ⟨j, hfree, hw, exists_step hfree hw⟩
  · intro i hi
    have hh := hinv.inside i hi
    refine ⟨hh, ?_, hinv.turn.apart i hh⟩
    rintro ⟨next, ht⟩
    exact hi (hinv.keeps i _ ht).1

def jam : World where
  hook := some (.reload {})
  store := .memory {}
  clock := { start := ⟨0, 0⟩ }

def stored : Descriptor where
  metadata := ⟨some "east", none, none, none, []⟩
  spec := ⟨"https://east.example", none, "east-token", none⟩
  status := none

theorem jam_run : ∃ log s, Run (.idle jam) log s ∧ phase 0 log = .inHook ∧
    s.WaitsFor 0 (.gate .entries) ∧ s.WaitsFor 1 .turn ∧ s.Holds 2 (.gate .entries) := by
  have h₀ : Run (.idle jam) _ _ := Run.here.step (.begins (i := 0) (.get "east" true) nofun)
  have h₁ := h₀.step (.enters (i := 0) rfl rfl (by decide) (by decide))
  have h₂ := h₁.step (.acts (i := 0) (a := .lookUp "east") rfl (by rintro g m ⟨⟩; decide)
    (.cache rfl rfl))
  have h₃ := h₂.step (.acts (i := 0) (a := .refreshCount) rfl nofun (.cache rfl rfl))
  have h₄ := h₃.step (.acts (i := 0) (a := .takeTurn) rfl nofun (.cache rfl rfl))
  have h₅ := h₄.step (.begins (i := 1) (.get "west" true) nofun)
  have h₆ := h₅.step (.enters (i := 1) rfl rfl (by decide) (by decide))
  have h₇ := h₆.step (.acts (i := 1) (a := .lookUp "west") rfl (by rintro g m ⟨⟩; decide)
    (.cache rfl rfl))
  have h₈ := h₇.step (.acts (i := 1) (a := .refreshCount) rfl nofun (.cache rfl rfl))
  have h₉ := h₈.step (.waits (i := 1) rfl rfl)
  have h₁₀ := h₉.step (.acts (i := 0) (a := .refreshCount) rfl nofun (.cache rfl rfl))
  have h₁₁ := h₁₀.step (.enters (i := 0) rfl rfl (by decide) (by decide))
  have h₁₂ := h₁₁.step (.acts (i := 0) (a := .refreshHook) rfl (by rintro g m ⟨⟩; decide)
    (.cache rfl rfl))
  have h₁₃ := h₁₂.step (.acts (i := 0) (a := .hookBegins) rfl nofun (.cache rfl rfl))
  have h₁₄ := h₁₃.step (.acts (i := 0) (a := .serviceHeld) (r := true) rfl nofun
    (.outside nofun ⟨rfl, rfl, rfl, rfl⟩))
  have h₁₅ := h₁₄.step (.acts (i := 0) (a := .listClusters) (r := .ok [stored]) rfl nofun
    (.outside nofun ⟨rfl, rfl, rfl, rfl⟩))
  have h₁₆ := h₁₅.step (.begins (i := 2) .reset nofun)
  have h₁₇ := h₁₆.step (.enters (i := 2) rfl rfl (by decide) (by decide))
  have h₁₈ := h₁₇.step (.queues (i := 0) rfl rfl (by decide) (by decide))
  exact ⟨_, _, h₁₈, rfl, ⟨_, _, rfl, rfl, by decide, by decide⟩, ⟨⟨_, rfl⟩, rfl⟩, .exclusive,
    by decide⟩

theorem flowing_jam : ∃ log s, jam.turn = {} ∧ Run (.idle jam) log s ∧ phase 0 log = .inHook ∧
    s.WaitsFor 0 (.gate .entries) ∧ s.WaitsFor 1 .turn ∧ Flowing log s := by
  obtain ⟨log, s, h, hphase, h₀, h₁, _⟩ := jam_run
  exact ⟨log, s, rfl, h, hphase, h₀, h₁, flowing_of_run rfl h⟩

end ClusterFleet.Cache.Traffic
