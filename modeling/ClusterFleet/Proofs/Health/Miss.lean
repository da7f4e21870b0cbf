import ClusterFleet.Proofs.Health.Record

namespace ClusterFleet.Health

def offlines (cs : List Condition) : List Condition := cs.filter (·.aspect = .offline)

/-- The cluster is offline, since the time on record if it has been so before. -/
def missed (now : Instant) (cs : List Condition) : Condition :=
  { offline with
    updated := some (Time.rfc3339 now)
    transitioned :=
      ((Condition.find? .offline cs).filter (·.verdict = .yes)).bind (·.transitioned) <|>
        some (Time.rfc3339 now) }

def afterMiss (now : Instant) (cs : List Condition) : List Condition :=
  missed now cs :: (offlines cs).tail

theorem merge_offlines (now : Instant) (cs : List Condition) :
    Condition.merge (offlines cs) [offline] now = afterMiss now cs := by
  have hhead : Condition.find? .offline cs = (offlines cs).head? := List.head?_filter.symm
  cases ho : offlines cs with
  | nil => simp [Condition.merge, Condition.recordAll, Condition.record, Condition.first, afterMiss,
      missed, hhead, ho]
  | cons old rest =>
    have hold : old ∈ offlines cs := ho ▸ List.mem_cons_self
    have haspect : old.aspect = .offline := by simpa using (List.mem_filter.1 hold).2
    by_cases hv : old.verdict = .yes <;>
      simp [Condition.merge, Condition.recordAll, Condition.record, Condition.replacing, afterMiss,
        missed, hhead, ho, haspect, hv, offline, Condition.observed, Option.filter_some]

theorem length_afterMiss (now : Instant) (cs : List Condition) :
    (afterMiss now cs).length = 1 ↔ (offlines cs).length ≤ 1 := by
  rw [afterMiss, List.length_cons, List.length_tail]
  omega

/-- Of a cluster that is stored as `d` a miss has been recorded, and nothing has kept it back. -/
structure RecordsMiss (name : String) (w w' : World) (d : Descriptor) : Prop where
  found : (w.perform (.findCluster name)).1 = .ok (some d)
  absent : w.connections.find? name = none
  written : (w.perform (.findCluster name)).2.store.writeStatus name
    ⟨afterMiss w.clock.read.1 d.conditions⟩ = (.ok (), w'.store)
  stored : ∀ m, w.store = .memory m → ∃ m', w'.store = .memory m' ∧
    m'.find name = some (d.withStatus ⟨afterMiss w.clock.read.1 d.conditions⟩)
  single : (afterMiss w.clock.read.1 d.conditions).length = 1 ↔ (offlines d.conditions).length ≤ 1

theorem persist_run {name : String} {cs : List Condition} {r r' : Except PassError PassOutcome}
    {w : World} (h : ((persist name cs r).run w).1 = some r')
    (hr' : ∀ e, r' ≠ .error (.persistence name e)) :
    r' = r ∧ w.store.writeStatus name ⟨cs⟩ = (.ok (), ((persist name cs r).run w).2.store) := by
  simp only [Program.run, persist, Program.act_bind, Program.runBy_call, World.perform] at h ⊢
  cases hu : w.faults.update with
  | some f =>
    simp only [hu, Program.runBy_pure, Option.some_inj] at h
    exact absurd h.symm (hr' _)
  | none =>
    simp only [hu, World.writeStatus] at h ⊢
    cases hw : (w.store.writeStatus name ⟨cs⟩).1 with
    | error e =>
      simp only [hw, Program.runBy_pure, Option.some_inj] at h
      exact absurd h.symm (hr' _)
    | ok u =>
      simp only [hw, Program.runBy_pure, Option.some_inj] at h ⊢
      exact ⟨h.symm, Prod.ext hw rfl⟩

theorem exists_perform_findCluster (w : World) (name : String) :
    ∃ s, (w.perform (.findCluster name)).2 = { w with store := s } ∧
      ∀ m, w.store = .memory m → s = .memory m := by
  simp only [World.perform, World.guarded]
  cases w.faults.get with
  | some f => exact ⟨w.store, rfl, fun m hm => hm⟩
  | none =>
    refine ⟨_, rfl, ?_⟩
    intro m hm
    rw [hm]
    rfl

theorem find_of_writeStatus {m : MemoryStore} {s' : Store} {name : String} {st : Status}
    {d : Descriptor} (hd : m.find name = some d)
    (h : (Store.memory m).writeStatus name st = (.ok (), s')) :
    ∃ m', s' = .memory m' ∧ m'.find name = some (d.withStatus st) := by
  simp only [Store.writeStatus, MemoryStore.writeStatus, hd, Prod.mk.injEq, true_and] at h
  exact ⟨_, h.symm, Table.find?_insert_self name _ _⟩

theorem found_memory {w : World} {m : MemoryStore} {name : String} {d : Descriptor}
    (hm : w.store = .memory m) (h : (w.perform (.findCluster name)).1 = .ok (some d)) :
    m.find name = some d := by
  simp only [World.perform, World.guarded, hm] at h
  cases hg : w.faults.get with
  | some f =>
    rw [hg] at h
    cases h
  | none =>
    rw [hg] at h
    exact Except.ok.inj h

variable {interval : Span} {name : String} {w : World}

theorem run_eq_recordMiss
    (h : ((pass interval name).run w).1 = some (.error (.cacheMiss name))) :
    ∃ d, (w.perform (.findCluster name)).1 = .ok (some d) ∧ w.connections.find? name = none ∧
      (pass interval name).run w = (recordMiss name d).run (w.perform (.findCluster name)).2 := by
  obtain ⟨s, hs, _⟩ := exists_perform_findCluster w name
  have hlook : ((w.perform (.findCluster name)).2.perform (.lookUp name)) =
      (w.connections.find? name, (w.perform (.findCluster name)).2) := by
    rw [hs]
    rfl
  simp only [Program.run, pass, Program.act_bind, Program.runBy_call] at h ⊢
  rcases hf : (w.perform (.findCluster name)).1 with e | d | d
  · simp [hf] at h
  · simp [hf] at h
  · simp only [hf, Program.runBy_call, hlook] at h ⊢
    cases hc : w.connections.find? name with
    | none => exact ⟨d, rfl, rfl, rfl⟩
    | some c =>
      -- A pass that has a connection ends otherwise.
      simp only [hc, recordProbe, Program.act_bind, Program.runBy_call] at h
      have hother : ∀ e, Except.error (PassError.cacheMiss name) ≠
          (.error (.persistence name e) : Except PassError PassOutcome) := by
        intro e he
        cases he
      have hend := persist_run h hother
      cases hend.1

theorem recordsMiss_of_run
    (h : ((pass interval name).run w).1 = some (.error (.cacheMiss name))) :
    ∃ d, RecordsMiss name w ((pass interval name).run w).2 d := by
  obtain ⟨d, hfound, habsent, hrun⟩ := run_eq_recordMiss h
  obtain ⟨s, hs, hmemory⟩ := exists_perform_findCluster w name
  rw [hrun] at h ⊢
  have hwritten : (w.perform (.findCluster name)).2.store.writeStatus name
      ⟨afterMiss w.clock.read.1 d.conditions⟩ =
        (.ok (), ((recordMiss name d).run (w.perform (.findCluster name)).2).2.store) := by
    have hnow : (w.perform (.findCluster name)).2.clock = w.clock := by rw [hs]
    have hend := (persist_run h nofun).2
    rw [← merge_offlines, ← hnow]
    exact hend
  refine ⟨d, hfound, habsent, hwritten, ?_, length_afterMiss _ _⟩
  intro m hm
  have hstore : (w.perform (.findCluster name)).2.store = .memory m := by rw [hs, hmemory m hm]
  rw [hstore] at hwritten
  exact find_of_writeStatus (found_memory hm hfound) hwritten

def doubled : Descriptor where
  metadata := ⟨some "east", none, none, none, []⟩
  spec := ⟨"https://east.example", none, "east-token", none⟩
  status := some ⟨[
    ⟨.offline, .yes, none, none, some "2024-01-01T00:00:00+00:00", none⟩,
    ⟨.ready, .no, none, none, none, none⟩,
    ⟨.offline, .no, none, none, none, none⟩]⟩

def doubledWorld : World where
  store := .memory { clusters := [("east", doubled)] }
  clock := { start := ⟨0, 0⟩ }

theorem doubled_run : ((pass (.ofSeconds 10) "east").run doubledWorld).1 =
    some (.error (.cacheMiss "east")) := rfl

theorem recordsMiss_doubled : ∃ d,
    ((pass (.ofSeconds 10) "east").run doubledWorld).1 = some (.error (.cacheMiss "east")) ∧
      RecordsMiss "east" doubledWorld ((pass (.ofSeconds 10) "east").run doubledWorld).2 d := by
  obtain ⟨d, hd⟩ := recordsMiss_of_run doubled_run
  exact ⟨d, doubled_run, hd⟩

/-- Both conditions on `offline` are still there. -/
theorem not_single_doubled : ∃ m d,
    ((pass (.ofSeconds 10) "east").run doubledWorld).1 = some (.error (.cacheMiss "east")) ∧
      ((pass (.ofSeconds 10) "east").run doubledWorld).2.store = .memory m ∧
        m.find "east" = some d ∧ d.conditions.map (·.aspect) = [.offline, .offline] :=
  ⟨_, _, doubled_run, rfl, rfl, rfl⟩

end ClusterFleet.Health
