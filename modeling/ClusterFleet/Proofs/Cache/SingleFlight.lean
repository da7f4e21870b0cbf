import ClusterFleet.Proofs.Cache.Stage

namespace ClusterFleet.Cache

/-- Runs of the hook begin and are counted as they should. -/
def Orderly (body : Program Unit) : List (Event Call) → Prop
  | [] => True
  | e :: log => Orderly body log ∧
    (∀ i, e.starts i = true → Waiting log i 0 ∧ ∀ j, underWay j log = false) ∧
    ∀ i, e.ends i = true → e.counts = true →
      underWay i log = true ∧ Reached i body log (.done ())

structure Invariant (run : RefreshHook → Program Unit) (hook : RefreshHook)
    (log : List (Event Call)) (s : Crew Call Outcome) : Prop where
  hooked : s.world.hook = some hook
  turn : s.world.turn.WellFormed
  stages : ∀ i, Stage run hook s.world log i (s.tasks i)
  orderly : Orderly (run hook) log
  dropped : ∀ i, .dropped i ∈ log → ∃ c, s.tasks i = some ⟨c, .crash⟩

section
variable {run : RefreshHook → Program Unit} {hook : RefreshHook} {w w' : World}
  {log : List (Event Call)} {e : Event Call} {s s' : Crew Call Outcome} {i j : Nat}

theorem Invariant.eq_of_underWay (h : Invariant run hook log s) (hi : underWay i log = true)
    (hj : underWay j log = true) : i = j := by
  have hi := (h.stages i).holder_of_underWay hi
  have hj := (h.stages j).holder_of_underWay hj
  exact Option.some.inj (hi.symm.trans hj)

theorem Invariant.dropped_step (h : Invariant run hook log s)
    (hs : Crew.Step (Call.program run) s e s') (hd : .dropped i ∈ e :: log) :
    ∃ c, s'.tasks i = some ⟨c, .crash⟩ := by
  rcases List.mem_cons.1 hd with rfl | hd
  · cases hs with
    | drops ht hp => exact ⟨_, Crew.tasks_put_self _ _ _ _⟩
  · obtain ⟨c, hc⟩ := h.dropped i hd
    exact ⟨c, hs.crashed hc⟩

theorem Invariant.stages_put (h : Invariant run hook log s) {t : Task Call Outcome}
    (hself : Stage run hook w (e :: log) i (some t)) (hb : ∀ j, j ≠ i → Beside s.world w e j)
    (j : Nat) : Stage run hook w (e :: log) j ((s.put i t w).tasks j) := by
  by_cases hj : j = i
  · subst hj
    rw [Crew.tasks_put_self]
    exact hself
  · rw [Crew.tasks_put_of_ne s hj]
    exact (h.stages j).beside (hb j hj)

theorem Invariant.begins (h : Invariant run hook log s) (k : Call) (hn : s.tasks i = none) :
    Invariant run hook (.began i k :: log) (s.put i ⟨k, k.program run⟩ s.world) := by
  have hs : Crew.Step (Call.program run) s (.began i k) _ := .begins k hn
  refine ⟨h.hooked, h.turn, h.stages_put ?_ ?_, ⟨h.orderly, nofun, nofun⟩,
    fun j => h.dropped_step hs⟩
  · have hst := h.stages i
    rw [hn] at hst
    cases hst with
    | idle hu => exact .early (hu.silent ⟨rfl, rfl, rfl⟩ id) (leads_program run k)
  · intro j hj
    exact ⟨hj.symm, id, fun ht => ⟨ht, rfl⟩, (UInt64.add_zero _).symm⟩

theorem Invariant.beside_of_acts (h : Invariant run hook log s) {c : Call} {a : Action}
    {r : a.Reply} {p : Program Outcome} (hadv : Advance run hook s.world w log i c a r p)
    (hw : s.world.Answers i a r w) (hj : j ≠ i) :
    Beside s.world w (.acted i a r : Event Call) j := by
  have hturn := hw.sameCache.turn
  have hcount := hw.sameCache.refreshes
  rw [World.turn_step] at hturn
  rw [World.refreshes_step] at hcount
  refine ⟨hj.symm, ?_, ?_, ?_⟩
  · intro ho
    rw [hturn]
    cases a with
    | takeTurn => exact ho.take hj
    | endTurn => exact .pass ho.queue
    | _ => exact ho
  · -- Only the holder passes the turn on or counts a refresh.
    intro ht
    rw [hturn]
    cases a with
    | takeTurn => exact ⟨Turn.holder_take ht i, rfl⟩
    | endTurn => exact absurd (Option.some.inj (ht.symm.trans (hadv.leaves rfl).2)) hj
    | countRefresh =>
      have hi := (h.stages i).holder_of_underWay (hadv.counts rfl).1
      exact absurd (Option.some.inj (ht.symm.trans hi)) hj
    | _ => exact ⟨ht, rfl⟩
  · rw [hcount]
    cases a with
    | countRefresh => rfl
    | _ => exact (UInt64.add_zero _).symm

theorem Invariant.acts (h : Invariant run hook log s) (hflat : Flat (run hook) log)
    (hlt : completions log < 2 ^ 64) {c : Call} {a : Action} {r : a.Reply}
    {next : a.Reply → Program Outcome} (ht : s.tasks i = some ⟨c, .call a next⟩)
    (hw : s.world.Answers i a r w) :
    Invariant run hook (.acted i a r :: log) (s.put i ⟨c, next r⟩ w) := by
  have hs : Crew.Step (Call.program run) s (.acted i a r) _ := .acts ht hw
  have hst := h.stages i
  rw [ht] at hst
  have hadv := hst.acts hflat h.hooked h.turn hlt hw
  refine ⟨?_, ?_, h.stages_put hadv.stage fun j => h.beside_of_acts hadv hw,
    ⟨h.orderly, ?_, ?_⟩, fun j => h.dropped_step hs⟩
  · exact (hw.sameCache.hook.trans (World.hook_step ..)).trans h.hooked
  · have hturn := hw.sameCache.turn
    rw [World.turn_step] at hturn
    rw [Crew.world_put, hturn]
    cases a with
    | takeTurn => exact h.turn.take i
    | endTurn => exact h.turn.pass
    | _ => exact h.turn
  · -- The holder fetches the hook, so that nobody else can be running it.
    intro j hj
    cases a with
    | refreshHook =>
      obtain rfl : i = j := of_decide_eq_true hj
      obtain ⟨hwait, hold⟩ := hadv.starts rfl
      refine ⟨hwait, ?_⟩
      intro m
      cases hm : underWay m log with
      | false => rfl
      | true =>
        obtain rfl := Option.some.inj (((h.stages m).holder_of_underWay hm).symm.trans hold)
        rw [hwait.resting] at hm
        cases hm
    | _ => cases hj
  · intro j hj hc
    cases a with
    | countRefresh =>
      obtain rfl : i = j := of_decide_eq_true hj
      exact hadv.counts rfl
    | _ => cases hc

theorem Invariant.waits (h : Invariant run hook log s) (hflat : Flat (run hook) log) {c : Call}
    {a : Action} {next : a.Reply → Program Outcome} (ht : s.tasks i = some ⟨c, .call a next⟩)
    (hw : s.world.step i a = (none, w)) :
    Invariant run hook (.waited i :: log) { s with world := w } := by
  have hs : Crew.Step (Call.program run) s (.waited i) _ := .waits ht hw
  obtain ⟨rfl, rfl⟩ := World.eq_takeTurn_of_step hw
  refine ⟨h.hooked, h.turn.take i, ?_, ⟨h.orderly, nofun, nofun⟩, fun j => h.dropped_step hs⟩
  intro j
  by_cases hj : j = i
  · subst hj
    have hst := h.stages j
    rw [ht] at hst ⊢
    exact hst.waits hflat
  · apply (h.stages j).beside
    exact ⟨fun hi => hj hi.symm, fun ho => ho.take hj, fun hh => ⟨Turn.holder_take hh i, rfl⟩,
      (UInt64.add_zero _).symm⟩

theorem Invariant.drops (h : Invariant run hook log s) {c : Call} {p : Program Outcome}
    (ht : s.tasks i = some ⟨c, p⟩) (hp : ∀ v, p ≠ .done v) :
    Invariant run hook (.dropped i :: log)
      (s.put i ⟨c, .crash⟩ { s.world with turn := s.world.turn.leave i }) := by
  have hs : Crew.Step (Call.program run) s (.dropped i) _ := .drops ht hp
  refine ⟨h.hooked, h.turn.leave i, h.stages_put (.gone ?_ ?_ ?_) ?_,
    ⟨h.orderly, nofun, nofun⟩, fun j => h.dropped_step hs⟩
  · simpa [starts, Event.starts] using (h.stages i).starts_le
  · simp [underWay, Event.starts, Event.ends]
  · exact .leave_self h.turn i
  · intro j hj
    exact ⟨hj.symm, fun ho => ho.leave i, fun hh => ⟨Turn.holder_leave hh hj, rfl⟩,
      (UInt64.add_zero _).symm⟩

theorem Invariant.step (h : Invariant run hook log s) (hflat : Flat (run hook) log)
    (hlt : completions log < 2 ^ 64) (hs : Crew.Step (Call.program run) s e s') :
    Invariant run hook (e :: log) s' := by
  cases hs with
  | begins k hn => exact h.begins k hn
  | acts ht hw => exact h.acts hflat hlt ht hw
  | waits ht hw => exact h.waits hflat ht hw
  | drops ht hp => exact h.drops ht hp

/-- The hook is set before the first call begins, and the counter does not run over. -/
structure Setting (run : RefreshHook → Program Unit) (hook : RefreshHook) (start : World)
    (log : List (Event Call)) : Prop where
  hooked : start.hook = some hook
  turn : start.turn = {}
  flat : Flat (run hook) log
  countable : completions log < 2 ^ 64

variable {start : World} {later : List (Event Call)}

theorem completions_append (later log : List (Event Call)) :
    completions (later ++ log) = completions later + completions log :=
  List.countP_append

theorem Setting.of_append (h : Setting run hook start (later ++ log)) :
    Setting run hook start log := by
  have hc := h.countable
  rw [completions_append] at hc
  exact ⟨h.hooked, h.turn, h.flat.of_append, by omega⟩

theorem Setting.of_cons (h : Setting run hook start (e :: log)) : Setting run hook start log := by
  have happ : Setting run hook start ([e] ++ log) := h
  exact happ.of_append

theorem invariant_of_run (hset : Setting run hook start log)
    (h : Crew.Run (Call.program run) (.idle start) log s) : Invariant run hook log s := by
  induction h with
  | here =>
    refine ⟨hset.hooked, ?_, ?_, trivial, nofun⟩
    · exact hset.turn ▸ Turn.wellFormed_idle
    · intro i
      exact .idle ⟨hset.turn ▸ Turn.outside_idle i, rfl, rfl, rfl⟩
  | @step s s' e log h hs ih =>
    have hlog : Setting run hook start log := hset.of_cons
    exact (ih hlog).step hlog.flat hlog.countable hs

theorem Orderly.of_append {body : Program Unit} {later : List (Event Call)}
    (h : Orderly body (later ++ log)) : Orderly body log := by
  induction later with
  | nil => exact h
  | cons e later ih => exact ih h.1

theorem eq_of_reads (h : e.reads i = true) : ∃ n, e = .acted i .refreshCount n := by
  unfold Event.reads at h
  split at h
  · next n => exact ⟨n, by rw [of_decide_eq_true h]⟩
  · cases h

theorem eq_of_starts (h : e.starts i = true) : ∃ r, e = .acted i .refreshHook r := by
  unfold Event.starts at h
  split at h
  · next r => exact ⟨r, by rw [of_decide_eq_true h]⟩
  · cases h

theorem eq_of_counts (h : e.counts = true) : ∃ m u, e = .acted m .countRefresh u := by
  unfold Event.counts at h
  split at h
  · next m u => exact ⟨m, u, rfl⟩
  · cases h

theorem heard_of_reads (n : UInt64) :
    heard i (.acted i .refreshCount n :: log) = some ((heard i log).getD 0) := by
  simp [heard, Event.reads]

theorem heard_eq_none_iff : heard i log = none ↔ ∀ n, .acted i .refreshCount n ∉ log := by
  constructor
  · -- Once the counter has been read there is a number, whatever comes later.
    intro h n hn
    obtain ⟨later, earlier, rfl⟩ := List.append_of_mem hn
    rw [heard_append (heard_of_reads n)] at h
    cases h
  · intro h
    induction log with
    | nil => rfl
    | cons e log ih =>
      have hlog := ih fun n hn => h n (List.mem_cons_of_mem _ hn)
      have he : e.reads i = false := by
        cases he : e.reads i with
        | false => rfl
        | true =>
          obtain ⟨n, rfl⟩ := eq_of_reads he
          exact absurd List.mem_cons_self (h n)
      simp [heard, he, hlog]

theorem exists_reads {n : Nat} (h : heard i log = some n) :
    ∃ count later earlier, log = later ++ .acted i .refreshCount count :: earlier ∧
      ∀ m, .acted i .refreshCount m ∉ earlier := by
  induction log generalizing n with
  | nil => cases h
  | cons e log ih =>
    cases hl : heard i log with
    | some m =>
      obtain ⟨count, later, earlier, rfl, hm⟩ := ih hl
      exact ⟨count, e :: later, earlier, rfl, hm⟩
    | none =>
      cases he : e.reads i with
      | true =>
        obtain ⟨count, rfl⟩ := eq_of_reads he
        exact ⟨count, [], log, rfl, heard_eq_none_iff.1 hl⟩
      | false => simp [heard, he, hl] at h

theorem exists_counts (h : 0 < completions log) :
    ∃ m u later earlier, log = later ++ .acted m .countRefresh u :: earlier ∧
      completions earlier = 0 := by
  induction log with
  | nil => cases h
  | cons e log ih =>
    by_cases hl : 0 < completions log
    · obtain ⟨m, u, later, earlier, rfl, hc⟩ := ih hl
      exact ⟨m, u, e :: later, earlier, rfl, hc⟩
    · have hz : completions log = 0 := by omega
      cases he : e.counts with
      | true =>
        obtain ⟨m, u, rfl⟩ := eq_of_counts he
        exact ⟨m, u, [], log, rfl, hz⟩
      | false => simp [completions_cons, hz, he] at h

theorem exists_starts {later : List (Event Call)} (h : underWay i (later ++ log) = true)
    (hn : underWay i log = false) :
    ∃ r later' earlier, later = later' ++ .acted i .refreshHook r :: earlier := by
  induction later with
  | nil =>
    rw [List.nil_append, hn] at h
    cases h
  | cons e later ih =>
    cases he : e.starts i with
    | true =>
      obtain ⟨r, rfl⟩ := eq_of_starts he
      exact ⟨r, [], later, rfl⟩
    | false =>
      have hl : underWay i (later ++ log) = true := by
        cases hend : e.ends i <;> simp [underWay, he, hend] at h
        exact h
      obtain ⟨r, later', earlier, rfl⟩ := ih hl
      exact ⟨r, e :: later', earlier, rfl⟩

theorem Invariant.ahead_step (h : Invariant run hook log s) (hflat : Flat (run hook) log)
    (hlt : completions log < 2 ^ 64) (hs : Crew.Step (Call.program run) s e s')
    (hh : heard j log = some 0) {others : List Nat} (hj : j ∈ others) (he : e ≠ .dropped j)
    (ha : s.world.turn.Ahead j others) : s'.world.turn.Ahead j others := by
  -- The turn can only go to the one who stands first, and nobody gets in front of `j`.
  cases hs with
  | begins k hn => exact ha
  | @acts i c a next r w ht hw =>
    have hst := h.stages i
    rw [ht] at hst
    have hadv := hst.acts hflat h.hooked h.turn hlt hw
    have hturn := hw.sameCache.turn
    rw [World.turn_step] at hturn
    rw [Crew.world_put, hturn]
    cases a with
    | takeTurn => exact ha.take i
    | endTurn =>
      -- A call that leaves has had a refresh counted, so it is not `j`.
      obtain ⟨hserved, hold⟩ := hadv.leaves rfl
      apply ha.pass hj
      intro hhold
      obtain rfl := Option.some.inj (hold.symm.trans hhold)
      obtain ⟨n, hn⟩ := hserved.heard
      rw [hh] at hn
      cases hn
    | _ => exact ha
  | @waits i c a next w ht hw =>
    obtain ⟨_, rfl⟩ := World.eq_takeTurn_of_step hw
    exact ha.take i
  | @drops i c p ht hp => exact ha.leave hj fun hi => he (hi ▸ rfl)

end

section
variable {run : RefreshHook → Program Unit} {hook : RefreshHook} {start : World}
  {log : List (Event Call)} {s : Crew Call Outcome} {i j : Nat}

theorem Invariant.completions_pos {later : List (Event Call)}
    (h : Invariant run hook (later ++ log) s) {c : Call} {v : Outcome}
    (ht : s.tasks i = some ⟨c, .done v⟩) (hh : heard i log = some 0) : 0 < completions later := by
  have hst := h.stages i
  rw [ht] at hst
  have hheard := heard_append hh later
  rcases hst.heard_of_done with ⟨hn, _⟩ | ⟨n, hn⟩
  · rw [hheard] at hn
    cases hn
  · rw [hheard, Option.some_inj] at hn
    omega

theorem Invariant.served (h : Invariant run hook log s) {c : Call} {v : Outcome}
    (ht : s.tasks i = some ⟨c, .done v⟩) {n : UInt64} {later earlier : List (Event Call)}
    (hlog : log = later ++ .acted i .refreshCount n :: earlier)
    (hm : ∀ m, .acted i .refreshCount m ∉ earlier) : 0 < completions later := by
  subst hlog
  refine h.completions_pos ht ?_
  rw [heard_of_reads, heard_eq_none_iff.2 hm]
  rfl

theorem Invariant.missed (h : Invariant run hook log s) {name : String}
    (ht : s.tasks i = some ⟨.get name true, .done (.found none)⟩) :
    ∃ n later earlier, log = later ++ .acted i .refreshCount n :: earlier ∧
      (∀ m, .acted i .refreshCount m ∉ earlier) ∧ 0 < completions later := by
  have hst := h.stages i
  rw [ht] at hst
  rcases hst.heard_of_done with ⟨_, hs⟩ | ⟨n, hn⟩
  · cases hs
  · obtain ⟨count, later, earlier, hlog, hm⟩ := exists_reads hn
    exact ⟨count, later, earlier, hlog, hm, h.served ht hlog hm⟩

theorem Orderly.content {body : Program Unit} {n : UInt64} {u : Unit} {r : Option RefreshHook}
    {later between earlier : List (Event Call)}
    (h : Orderly body
      (later ++ .acted j .countRefresh u :: between ++ .acted i .refreshCount n :: earlier)) :
    .acted i .refreshHook r ∉ later := by
  intro hr
  obtain ⟨later, between', rfl⟩ := List.append_of_mem hr
  have horder : Orderly body (later ++ .acted i .refreshHook r ::
      ((between' ++ .acted j .countRefresh u :: between) ++
        .acted i .refreshCount n :: earlier)) := by
    simpa using h
  -- The run began with nothing heard, but the refresh of `j` is in between.
  have hwait := (horder.of_append.2.1 i (decide_eq_true rfl)).1.heard
  have hone : (.acted j .countRefresh u : Event Call).counts = true := rfl
  rw [heard_append (heard_of_reads n), completions_append, completions_cons, if_pos hone,
    Option.some_inj] at hwait
  omega

theorem not_acted_of_dropped {later earlier : List (Event Call)}
    (hset : Setting run hook start (later ++ .dropped i :: earlier))
    (h : Crew.Run (Call.program run) (.idle start) (later ++ .dropped i :: earlier) s)
    (a : Action) (r : a.Reply) : .acted i a r ∉ later := by
  intro ha
  obtain ⟨later, between, rfl⟩ := List.append_of_mem ha
  have hlog : (later ++ .acted i a r :: between) ++ .dropped i :: earlier =
      (later ++ [.acted i a r]) ++ (between ++ .dropped i :: earlier) := by simp
  rw [hlog] at h hset
  obtain ⟨s₁, h₁, hlater⟩ := h.cut
  obtain ⟨c, hc⟩ := (invariant_of_run hset.of_append h₁).dropped i (by simp)
  obtain ⟨s₂, hact, _⟩ := hlater.first
  -- What has been dropped has no action left to do.
  cases hact with
  | acts ht _ => cases hc.symm.trans ht

/-- As long as no refresh is counted, the turn stays with those who come before `j`. -/
theorem ahead_of_run {others : List Nat} {s₂ : Crew Call Outcome} {later : List (Event Call)}
    (hset : Setting run hook start (later ++ log))
    (h₂ : Crew.Run (Call.program run) (.idle start) log s₂)
    (h : Crew.Run (Call.program run) s₂ later s) (hh : heard j log = some 0)
    (hc : completions later = 0) (hd : .dropped j ∉ later) (hj : j ∈ others)
    (ha : s₂.world.turn.Ahead j others) : s.world.turn.Ahead j others := by
  induction h with
  | here => exact ha
  | @step s s' e later h hs ih =>
    have hz : completions later = 0 := by
      rw [completions_cons] at hc
      omega
    have hset' : Setting run hook start (later ++ log) := hset.of_cons
    have hd' : .dropped j ∉ later := fun hm => hd (List.mem_cons_of_mem _ hm)
    have he : e ≠ .dropped j := fun he => hd (he ▸ List.mem_cons_self)
    have hheard : heard j (later ++ log) = some 0 := by rw [heard_append hh, hz]
    have hinv := invariant_of_run hset' (h₂.trans h)
    exact hinv.ahead_step hset'.flat hset'.countable hs hheard hj he (ih hset' hz hd')

/-- Nobody waits for a turn that no one makes use of. -/
theorem Invariant.held (h : Invariant run hook log s) (hj : j ∈ s.world.turn.queue) :
    ∃ i, s.world.turn.holder = some i ∧
      ((∃ a r s', Crew.Step (Call.program run) s (.acted i a r) s') ∨
        ∃ c, s.tasks i = some ⟨c, .crash⟩) := by
  cases hi : s.world.turn.holder with
  | none =>
    rw [h.turn.free hi] at hj
    cases hj
  | some i =>
    refine ⟨i, rfl, ?_⟩
    obtain ⟨c, hc | ⟨a, next, ht⟩⟩ := (h.stages i).of_holder hi
    · exact .inr ⟨c, hc⟩
    · obtain ⟨r, w, hw⟩ := World.exists_answers s.world i a fun _ => Turn.take_of_holder hi
      exact .inl ⟨a, r, _, .acts ht hw⟩

theorem Invariant.ahead_of_drop (h : Invariant run hook log s) {s' : Crew Call Outcome}
    (hs : Crew.Step (Call.program run) s (.dropped i) s') (hi : underWay i log = true)
    (hj : j ∈ s.world.turn.queue) :
    s'.world.turn.Ahead j (Turn.before j s.world.turn.queue ++ [j]) := by
  cases hs with
  | drops _ _ =>
    rw [Crew.world_put, Turn.leave, if_pos ((h.stages i).holder_of_underWay hi)]
    exact Turn.ahead_of_pass hj

theorem Invariant.underWay_dropped (h : Invariant run hook log s) (hi : underWay i log = true)
    (m : Nat) : underWay m (.dropped i :: log) = false := by
  by_cases hm : m = i
  · subst hm
    simp [underWay, Event.starts, Event.ends]
  · have hlog : underWay m log = false := by
      cases hw : underWay m log with
      | true => exact absurd (h.eq_of_underWay hw hi) hm
      | false => rfl
    simp [underWay, Event.starts, Event.ends, hlog]

/-- A call that inherits the turn, at once or later, returns after a whole run. -/
theorem inherited_of_run {s₁ : Crew Call Outcome} {later earlier : List (Event Call)}
    (hset : Setting run hook start (later ++ .dropped i :: earlier))
    (h₁ : Crew.Run (Call.program run) (.idle start) earlier s₁)
    (h : Crew.Run (Call.program run) s₁ (later ++ [.dropped i]) s)
    (hi : underWay i earlier = true) (hj : j ∈ s₁.world.turn.queue)
    (hh : heard j earlier = some 0) {c : Call} {v : Outcome}
    (ht : s.tasks j = some ⟨c, .done v⟩) :
    ∃ m ∈ Turn.before j s₁.world.turn.queue ++ [j], ∃ r u l₁ l₂ l₃,
      later = l₃ ++ .acted m .countRefresh u :: l₂ ++ .acted m .refreshHook r :: l₁ := by
  obtain ⟨s₂, hs, hlater⟩ := h.first
  have hset₂ : Setting run hook start (.dropped i :: earlier) := hset.of_append
  have hinv₁ := invariant_of_run hset₂.of_cons h₁
  have h₂ := h₁.step hs
  have hinv := invariant_of_run hset (h₂.trans hlater)
  have hd : .dropped j ∉ later := by
    intro hm
    obtain ⟨c', hc'⟩ := hinv.dropped j (List.mem_append_left _ hm)
    cases ht.symm.trans hc'
  -- A refresh must have been counted before `j` could return; here is the first one.
  have hh₂ : heard j (.dropped i :: earlier) = some 0 := heard_cons hh _
  obtain ⟨m, u, l₃, l₂, rfl, hz⟩ := exists_counts (hinv.completions_pos ht hh₂)
  have horder : Orderly (run hook)
      (l₃ ++ .acted m .countRefresh u :: (l₂ ++ .dropped i :: earlier)) := by
    simpa using hinv.orderly
  have hway := (horder.of_append.2.2 m (decide_eq_true rfl) rfl).1
  -- Until then the turn has stayed with those who came before `j`, so that it was one of them.
  have hm : m ∈ Turn.before j s₁.world.turn.queue ++ [j] := by
    have hrun₂ : Crew.Run (Call.program run) s₂ ((l₃ ++ [.acted m .countRefresh u]) ++ l₂) s := by
      simpa using hlater
    have hlog : Setting run hook start
        ((l₃ ++ [.acted m .countRefresh u]) ++ (l₂ ++ .dropped i :: earlier)) := by
      simpa using hset
    have hset₃ := hlog.of_append
    obtain ⟨s₃, h₃, _⟩ := hrun₂.cut
    have hd₂ : .dropped j ∉ l₂ := fun hm =>
      hd (List.mem_append_right _ (List.mem_cons_of_mem _ hm))
    have hahead := ahead_of_run hset₃ h₂ h₃ hh₂ hz hd₂ (by simp) (hinv₁.ahead_of_drop hs hi hj)
    obtain ⟨m', hm', hhold⟩ := hahead.holder
    have hhold' := ((invariant_of_run hset₃ (h₂.trans h₃)).stages m).holder_of_underWay hway
    obtain rfl := Option.some.inj (hhold'.symm.trans hhold)
    exact hm'
  obtain ⟨r, l₂, l₁, rfl⟩ := exists_starts hway (hinv₁.underWay_dropped hi m)
  exact ⟨m, hm, r, u, l₁, l₂, l₃, by simp⟩

end

theorem quiet_act {a : Action} (h : a.isTurn = false) : (Program.act a).Quiet :=
  ⟨h, fun _ => trivial⟩

theorem quiet_connect (settings : RegistrationSettings) (d : Descriptor) :
    (Registration.connect settings d).Quiet := by
  have hr : (Registration.resolve settings d).Quiet := by
    unfold Registration.resolve
    split
    · trivial
    · refine (quiet_act rfl).bind ?_
      intro r
      cases r <;> trivial
  apply hr.bind
  intro r
  cases r with
  | error e => trivial
  | ok config =>
    refine (quiet_act rfl).bind ?_
    intro outcome
    cases outcome with
    | crashed => trivial
    | refused e => trivial
    | built client => exact (quiet_act rfl).bind fun _ => trivial

theorem quiet_register (settings : RegistrationSettings) (d : Descriptor) :
    (Registration.register settings d).Quiet := by
  refine (quiet_act rfl).bind ?_
  intro found
  cases found with
  | none => exact quiet_connect settings d
  | some c =>
    by_cases h : Registration.agrees settings c d
    · simp only [h, if_true]
      exact (quiet_act rfl).bind fun _ => trivial
    · simp only [h, Bool.false_eq_true, if_false]
      exact quiet_connect settings d

theorem quiet_registerAll (settings : RegistrationSettings) (ds : List Descriptor) :
    (Registration.registerAll settings ds).Quiet := by
  induction ds with
  | nil => trivial
  | cons d ds ih => exact (quiet_register settings d).bind fun _ => ih.bind fun _ => trivial

theorem quiet_addAll (cs : List Connection) : (RefreshHook.addAll cs).Quiet := by
  induction cs with
  | nil => trivial
  | cons c cs ih => exact (quiet_act rfl).bind fun _ => ih

theorem quiet_run (hook : RefreshHook) : hook.run.Quiet := by
  refine (quiet_act rfl).bind ?_
  intro _
  cases hook with
  | reload settings =>
    refine (quiet_act rfl).bind ?_
    intro held
    cases held with
    | false => trivial
    | true =>
      refine Program.Quiet.bind ?_ fun _ => trivial
      refine (quiet_act rfl).bind ?_
      intro ds
      cases ds with
      | error e => trivial
      | ok ds => exact quiet_registerAll settings ds
  | preload delay cs =>
    by_cases h : delay = 0
    · simpa [RefreshHook.fill, h] using quiet_addAll cs
    · simp only [RefreshHook.fill, ne_eq, h, not_false_eq_true, if_true]
      exact (quiet_act rfl).bind fun _ => quiet_addAll cs

/-- How the calls of a run have shared their refreshes. -/
structure SingleFlight (run : RefreshHook → Program Unit) (hook : RefreshHook) (start : World)
    (log : List (Event Call)) (s : Crew Call Outcome) : Prop where
  /-- Runs of the hook do not overlap. -/
  apart : ∀ i j, underWay i log = true → underWay j log = true → i = j
  /-- What is counted is a run from beginning to end. -/
  complete : ∀ i u later earlier, log = later ++ .acted i .countRefresh u :: earlier →
    underWay i earlier = true ∧ Reached i (run hook) earlier (.done ())
  /-- A call that has returned has had a refresh counted since it first read the counter. -/
  served : ∀ i c v, s.tasks i = some ⟨c, .done v⟩ → ∀ n later earlier,
    log = later ++ .acted i .refreshCount n :: earlier →
    (∀ m, .acted i .refreshCount m ∉ earlier) → 0 < completions later
  /-- A call that returns a miss has read the counter. -/
  missed : ∀ i name, s.tasks i = some ⟨.get name true, .done (.found none)⟩ →
    ∃ n later earlier, log = later ++ .acted i .refreshCount n :: earlier ∧
      (∀ m, .acted i .refreshCount m ∉ earlier) ∧ 0 < completions later
  /-- No call begins a run when one was counted since it read the counter. -/
  content : ∀ i j n u r later between earlier,
    log = later ++ .acted j .countRefresh u :: between ++ .acted i .refreshCount n :: earlier →
    .acted i .refreshHook r ∉ later
  once : ∀ i, starts i log ≤ 1
  /-- What is dropped does nothing any more; a run that it has begun is never counted. -/
  dropped : ∀ i later earlier, log = later ++ .dropped i :: earlier → ∀ a r, .acted i a r ∉ later
  /--
  When a run is dropped, a call in the queue that no refresh was counted for returns after a whole
  run of its own or of one that stood before it.
  -/
  inherited : ∀ i s₁ later earlier, log = later ++ .dropped i :: earlier →
    Crew.Run (Call.program run) (.idle start) earlier s₁ →
    Crew.Run (Call.program run) s₁ (later ++ [.dropped i]) s → underWay i earlier = true →
    ∀ j ∈ s₁.world.turn.queue, heard j earlier = some 0 →
    ∀ c v, s.tasks j = some ⟨c, .done v⟩ →
    ∃ m ∈ Turn.before j s₁.world.turn.queue ++ [j], ∃ r u l₁ l₂ l₃,
      later = l₃ ++ .acted m .countRefresh u :: l₂ ++ .acted m .refreshHook r :: l₁
  /-- While a call waits, one that has the turn can go on, or else has crashed. -/
  held : ∀ j ∈ s.world.turn.queue, ∃ i, s.world.turn.holder = some i ∧
    ((∃ a r s', Crew.Step (Call.program run) s (.acted i a r) s') ∨
      ∃ c, s.tasks i = some ⟨c, .crash⟩)

theorem singleFlight_of_run {run : RefreshHook → Program Unit} {hook : RefreshHook} {start : World}
    {log : List (Event Call)} {s : Crew Call Outcome} (hhook : start.hook = some hook)
    (hturn : start.turn = {}) (hflat : Flat (run hook) log) (hlt : completions log < 2 ^ 64)
    (h : Crew.Run (Call.program run) (.idle start) log s) : SingleFlight run hook start log s := by
  have hset : Setting run hook start log := ⟨hhook, hturn, hflat, hlt⟩
  have hinv := invariant_of_run hset h
  refine ⟨fun i j => hinv.eq_of_underWay, ?_, fun i c v ht n later earlier => hinv.served ht,
    fun i name => hinv.missed, ?_, fun i => (hinv.stages i).starts_le, ?_, ?_,
    fun j => hinv.held⟩
  · rintro i u later earlier rfl
    exact hinv.orderly.of_append.2.2 i (decide_eq_true rfl) rfl
  · rintro i j n u r later between earlier rfl
    exact hinv.orderly.content
  · rintro i later earlier rfl
    exact not_acted_of_dropped hset h
  · rintro i s₁ later earlier rfl h₁ h₂ hi j hj hh c v ht
    exact inherited_of_run hset h₁ h₂ hi hj hh ht

def vacant : World where
  hook := some (.preload 0 [])
  store := .memory {}
  clock := { start := ⟨0, 0⟩ }

theorem vacant_run : ∃ log s, Crew.Run (Call.program RefreshHook.run) (.idle vacant) log s ∧
    completions log = 1 ∧ underWay 0 log = false ∧ starts 1 log = 1 ∧
      s.tasks 1 = some ⟨.get "east" true, .done (.found none)⟩ := by
  have h₀ : Crew.Run (Call.program RefreshHook.run) (.idle vacant) _ _ :=
    Crew.Run.here.step (.begins (i := 0) (.get "east" true) rfl)
  have h₁ := h₀.step (.begins (i := 1) (.get "east" true) rfl)
  have h₂ := h₁.step (.acts (i := 0) (a := .lookUp "east") rfl (.cache rfl rfl))
  have h₃ := h₂.step (.acts (i := 1) (a := .lookUp "east") rfl (.cache rfl rfl))
  have h₄ := h₃.step (.acts (i := 0) (a := .refreshCount) rfl (.cache rfl rfl))
  have h₅ := h₄.step (.acts (i := 1) (a := .refreshCount) rfl (.cache rfl rfl))
  have h₆ := h₅.step (.acts (i := 0) (a := .takeTurn) rfl (.cache rfl rfl))
  have h₇ := h₆.step (.waits (i := 1) (a := .takeTurn) rfl rfl)
  have h₈ := h₇.step (.acts (i := 0) (a := .refreshCount) rfl (.cache rfl rfl))
  have h₉ := h₈.step (.acts (i := 0) (a := .refreshHook) rfl (.cache rfl rfl))
  have h₁₀ := h₉.step (.drops (i := 0) rfl nofun)
  have h₁₁ := h₁₀.step (.acts (i := 1) (a := .takeTurn) rfl (.cache rfl rfl))
  have h₁₂ := h₁₁.step (.acts (i := 1) (a := .refreshCount) rfl (.cache rfl rfl))
  have h₁₃ := h₁₂.step (.acts (i := 1) (a := .refreshHook) rfl (.cache rfl rfl))
  have h₁₄ := h₁₃.step (.acts (i := 1) (a := .hookBegins) rfl (.cache rfl rfl))
  have h₁₅ := h₁₄.step (.acts (i := 1) (a := .countRefresh) rfl (.cache rfl rfl))
  have h₁₆ := h₁₅.step (.acts (i := 1) (a := .endTurn) rfl (.cache rfl rfl))
  have h₁₇ := h₁₆.step (.acts (i := 1) (a := .lookUp "east") rfl (.cache rfl rfl))
  exact ⟨_, _, h₁₇, rfl, rfl, rfl, rfl⟩

theorem singleFlight_vacant : ∃ log s,
    Crew.Run (Call.program RefreshHook.run) (.idle vacant) log s ∧
      s.tasks 1 = some ⟨.get "east" true, .done (.found none)⟩ ∧
        SingleFlight RefreshHook.run (.preload 0 []) vacant log s := by
  obtain ⟨log, s, h, hone, _, _, ht⟩ := vacant_run
  have hlt : completions log < 2 ^ 64 := by
    rw [hone]
    decide
  exact ⟨log, s, h, ht, singleFlight_of_run rfl rfl (flat_of_quiet (quiet_run _) log) hlt h⟩

end ClusterFleet.Cache
