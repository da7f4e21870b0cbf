import ClusterFleet.Proofs.Crew

namespace ClusterFleet.Turn

structure WellFormed (t : Turn) : Prop where
  /-- Nobody waits for a turn that is free. -/
  free : t.holder = none → t.queue = []
  apart : ∀ i, t.holder = some i → i ∉ t.queue
  nodup : t.queue.Nodup

/-- The task neither has the turn nor waits for it. -/
structure Outside (t : Turn) (i : Nat) : Prop where
  holder : t.holder ≠ some i
  queue : i ∉ t.queue

variable {t : Turn} {i j : Nat}

theorem wellFormed_idle : WellFormed {} :=
  ⟨fun _ => rfl, nofun, List.nodup_nil⟩

theorem outside_idle (i : Nat) : Outside {} i :=
  ⟨nofun, List.not_mem_nil⟩

theorem take_cases (t : Turn) (i : Nat) :
    (t.holder = none ∧ t.take i = (true, { t with holder := some i })) ∨
    (t.holder = some i ∧ t.take i = (true, t)) ∨
    ((∃ j, j ≠ i ∧ t.holder = some j) ∧ i ∈ t.queue ∧ t.take i = (false, t)) ∨
    ((∃ j, j ≠ i ∧ t.holder = some j) ∧ i ∉ t.queue ∧
      t.take i = (false, { t with queue := t.queue ++ [i] })) := by
  unfold take
  cases hh : t.holder with
  | none => exact .inl ⟨rfl, rfl⟩
  | some j =>
    by_cases hj : j = i
    · subst hj
      exact .inr (.inl ⟨rfl, if_pos rfl⟩)
    · by_cases hq : i ∈ t.queue
      · exact .inr (.inr (.inl ⟨⟨j, hj, rfl⟩, hq, by simp [hj, hq]⟩))
      · exact .inr (.inr (.inr ⟨⟨j, hj, rfl⟩, hq, by simp [hj, hq]⟩))

theorem WellFormed.take (h : t.WellFormed) (i : Nat) : (t.take i).2.WellFormed := by
  rcases take_cases t i with ⟨hn, he⟩ | ⟨_, he⟩ | ⟨_, _, he⟩ | ⟨⟨j, hj, hh⟩, hq, he⟩ <;> rw [he]
  · refine ⟨nofun, ?_, h.nodup⟩
    intro k _
    simp [h.free hn]
  · exact h
  · exact h
  · -- The task that comes to stand last neither has the turn nor stood in the queue before.
    refine ⟨?_, ?_, ?_⟩
    · intro h'
      rw [hh] at h'
      cases h'
    · intro k hk hm
      rcases List.mem_append.1 hm with hm | hm
      · exact h.apart k hk hm
      · obtain rfl := List.mem_singleton.1 hm
        exact hj (Option.some.inj (hh.symm.trans hk))
    · rw [List.nodup_append]
      refine ⟨h.nodup, List.nodup_cons.2 ⟨List.not_mem_nil, List.nodup_nil⟩, ?_⟩
      intro a ha b hb hab
      rw [List.mem_singleton] at hb
      exact hq (hb ▸ hab ▸ ha)

theorem WellFormed.pass (h : t.WellFormed) : t.pass.WellFormed := by
  obtain ⟨holder, queue⟩ := t
  cases queue with
  | nil => exact ⟨fun _ => rfl, fun _ _ => List.not_mem_nil, List.nodup_nil⟩
  | cons j rest =>
    obtain ⟨hj, hrest⟩ := List.nodup_cons.1 h.nodup
    refine ⟨nofun, ?_, hrest⟩
    intro k hk
    cases hk
    exact hj

theorem WellFormed.leave (h : t.WellFormed) (i : Nat) : (t.leave i).WellFormed := by
  unfold Turn.leave
  split
  · exact h.pass
  · refine ⟨?_, ?_, h.nodup.erase i⟩
    · intro hn
      simp [h.free hn]
    · intro k hk hm
      exact h.apart k hk (List.mem_of_mem_erase hm)

theorem holder_of_take (h : (t.take i).1 = true) : (t.take i).2.holder = some i := by
  rcases take_cases t i with ⟨_, he⟩ | ⟨hh, he⟩ | ⟨_, _, he⟩ | ⟨_, _, he⟩ <;> rw [he] at h ⊢
  · exact hh
  · cases h
  · cases h

theorem holder_take (h : t.holder = some j) (i : Nat) : (t.take i).2.holder = some j := by
  rcases take_cases t i with ⟨hn, _⟩ | ⟨_, he⟩ | ⟨_, _, he⟩ | ⟨_, _, he⟩
  · rw [h] at hn
    cases hn
  all_goals
    rw [he]
    exact h

theorem take_of_holder (h : t.holder = some i) : (t.take i).1 = true := by
  rcases take_cases t i with ⟨_, he⟩ | ⟨_, he⟩ | ⟨⟨j, hj, hh⟩, _⟩ | ⟨⟨j, hj, hh⟩, _⟩
  · rw [he]
  · rw [he]
  all_goals exact absurd (Option.some.inj (hh.symm.trans h)) hj

theorem Outside.take (h : t.Outside j) (hj : j ≠ i) : (t.take i).2.Outside j := by
  rcases take_cases t i with ⟨_, he⟩ | ⟨_, he⟩ | ⟨_, _, he⟩ | ⟨_, _, he⟩ <;> rw [he]
  · exact ⟨fun h' => hj (Option.some.inj h').symm, h.queue⟩
  · exact h
  · exact h
  · refine ⟨h.holder, ?_⟩
    intro hm
    rcases List.mem_append.1 hm with hm | hm
    · exact h.queue hm
    · exact hj (List.mem_singleton.1 hm)

theorem Outside.pass (h : j ∉ t.queue) : t.pass.Outside j :=
  ⟨fun h' => h (List.mem_of_head? h'), fun hm => h (List.mem_of_mem_tail hm)⟩

theorem Outside.leave_self (h : t.WellFormed) (i : Nat) : (t.leave i).Outside i := by
  unfold Turn.leave
  split
  · next hi => exact .pass (h.apart i hi)
  · next hi => exact ⟨hi, fun hm => (h.nodup.mem_erase_iff.1 hm).1 rfl⟩

theorem Outside.leave (h : t.Outside j) (i : Nat) : (t.leave i).Outside j := by
  unfold Turn.leave
  split
  · exact .pass h.queue
  · exact ⟨h.holder, fun hm => h.queue (List.mem_of_mem_erase hm)⟩

theorem holder_leave (h : t.holder = some j) (hj : j ≠ i) : (t.leave i).holder = some j := by
  have hi : t.holder ≠ some i := fun hi => hj (Option.some.inj (h.symm.trans hi))
  rw [Turn.leave, if_neg hi]
  exact h

/-- Those who stand before `j` in a queue. -/
def before (j : Nat) (queue : List Nat) : List Nat := queue.takeWhile (· ≠ j)

theorem before_cons_of_ne {x : Nat} (h : x ≠ j) (q : List Nat) :
    before j (x :: q) = x :: before j q := by
  simp [before, h]

theorem mem_before_append {q : List Nat} {m : Nat} (hj : j ∈ q) (hm : m ∈ before j (q ++ [i])) :
    m ∈ before j q := by
  induction q with
  | nil => cases hj
  | cons x q ih =>
    by_cases hx : x = j
    · simp [before, hx] at hm
    · have hq : j ∈ q := (List.mem_cons.1 hj).resolve_left fun h => hx h.symm
      rw [List.cons_append, before_cons_of_ne hx, List.mem_cons] at hm
      rw [before_cons_of_ne hx, List.mem_cons]
      exact hm.imp_right (ih hq)

theorem mem_before_erase {q : List Nat} {m : Nat} (hi : i ≠ j) (hm : m ∈ before j (q.erase i)) :
    m ∈ before j q := by
  induction q with
  | nil => exact hm
  | cons x q ih =>
    by_cases hx : x = i
    · subst hx
      rw [List.erase_cons_head] at hm
      rw [before_cons_of_ne hi]
      exact List.mem_cons_of_mem _ hm
    · rw [List.erase_cons_tail (by simpa using hx)] at hm
      by_cases hj : x = j
      · simp [before, hj] at hm
      · rw [before_cons_of_ne hj, List.mem_cons] at hm ⊢
        exact hm.imp_right ih

/-- Until `j` has had its turn, only the tasks of `others` have it. -/
structure Ahead (t : Turn) (j : Nat) (others : List Nat) : Prop where
  holder : ∃ m ∈ others, t.holder = some m
  place : t.holder = some j ∨ j ∈ t.queue ∧ ∀ m ∈ before j t.queue, m ∈ others

variable {others : List Nat}

theorem Ahead.take (h : t.Ahead j others) (i : Nat) : (t.take i).2.Ahead j others := by
  obtain ⟨m, hm, hh⟩ := h.holder
  rcases take_cases t i with ⟨hn, _⟩ | ⟨_, he⟩ | ⟨_, _, he⟩ | ⟨_, _, he⟩
  · rw [hh] at hn
    cases hn
  · rw [he]
    exact h
  · rw [he]
    exact h
  · rw [he]
    refine ⟨⟨m, hm, hh⟩, h.place.imp_right ?_⟩
    rintro ⟨hj, hb⟩
    refine ⟨List.mem_append_left _ hj, ?_⟩
    intro x hx
    exact hb x (mem_before_append hj hx)

theorem Ahead.pass (h : t.Ahead j others) (hj : j ∈ others) (hn : t.holder ≠ some j) :
    t.pass.Ahead j others := by
  obtain ⟨hq, hb⟩ := h.place.resolve_left hn
  obtain ⟨holder, queue⟩ := t
  cases queue with
  | nil => cases hq
  | cons x rest =>
    by_cases hx : x = j
    · subst hx
      exact ⟨⟨x, hj, rfl⟩, .inl rfl⟩
    · have hrest : j ∈ rest := (List.mem_cons.1 hq).resolve_left fun h => hx h.symm
      rw [before_cons_of_ne hx, List.forall_mem_cons] at hb
      exact ⟨⟨x, hb.1, rfl⟩, .inr ⟨hrest, hb.2⟩⟩

theorem Ahead.leave (h : t.Ahead j others) (hj : j ∈ others) (hi : i ≠ j) :
    (t.leave i).Ahead j others := by
  unfold Turn.leave
  split
  · next hh => exact h.pass hj fun h' => hi (Option.some.inj (hh.symm.trans h'))
  · refine ⟨h.holder, h.place.imp_right ?_⟩
    rintro ⟨hq, hb⟩
    refine ⟨(List.mem_erase_of_ne hi.symm).2 hq, ?_⟩
    intro m hm
    exact hb m (mem_before_erase hi hm)

theorem ahead_of_pass (h : j ∈ t.queue) : t.pass.Ahead j (before j t.queue ++ [j]) := by
  obtain ⟨holder, queue⟩ := t
  cases queue with
  | nil => cases h
  | cons x rest =>
    by_cases hx : x = j
    · subst hx
      exact ⟨⟨x, by simp, rfl⟩, .inl rfl⟩
    · have hrest : j ∈ rest := (List.mem_cons.1 h).resolve_left fun h => hx h.symm
      rw [before_cons_of_ne hx]
      refine ⟨⟨x, List.mem_cons_self, rfl⟩, .inr ⟨hrest, ?_⟩⟩
      intro m hm
      exact List.mem_cons_of_mem _ (List.mem_append_left _ hm)

end ClusterFleet.Turn
