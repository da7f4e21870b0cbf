import ClusterFleet.Time.Instant

namespace ClusterFleet.Instant

variable {s t u : Instant}

theorem le_iff : s.le t = true ↔
    s.seconds < t.seconds ∨ s.seconds = t.seconds ∧ s.nanos ≤ t.nanos := by
  simp [le]

theorem le_refl (t : Instant) : t.le t = true := le_iff.2 (.inr ⟨rfl, Nat.le_refl _⟩)

theorem le_trans (h : s.le t = true) (h' : t.le u = true) : s.le u = true := by
  rw [le_iff] at *
  omega

theorem le_antisymm (h : s.le t = true) (h' : t.le s = true) : s = t := by
  obtain ⟨a, m⟩ := s
  obtain ⟨b, n⟩ := t
  rw [le_iff] at *
  simp only [mk.injEq]
  simp only at h h'
  omega

theorem le_of_not_le (h : ¬s.le t = true) : t.le s = true := by
  rw [le_iff] at *
  omega

theorem le_max_left (s t : Instant) : s.le (s.max t) = true := by
  unfold max
  split
  · next h => exact h
  · exact le_refl s

theorem le_max_right (s t : Instant) : t.le (s.max t) = true := by
  unfold max
  split
  · exact le_refl t
  · next h =>
    rw [le_iff] at *
    omega

theorem max_eq (s t : Instant) : s.max t = s ∨ s.max t = t := by
  unfold max
  split
  · exact .inr rfl
  · exact .inl rfl

theorem foldl_max (ts : List Instant) (t : Instant) :
    ts.foldl max t ∈ t :: ts ∧ ∀ u ∈ t :: ts, u.le (ts.foldl max t) = true := by
  induction ts generalizing t with
  | nil =>
    refine ⟨List.mem_cons_self, ?_⟩
    intro u hu
    rw [List.mem_singleton.1 hu]
    exact le_refl t
  | cons t' ts ih =>
    obtain ⟨hmem, hle⟩ := ih (t.max t')
    have hmax := hle _ List.mem_cons_self
    refine ⟨?_, ?_⟩
    · rcases List.mem_cons.1 hmem with hm | hm
      · rw [List.foldl_cons, hm]
        rcases max_eq t t' with h | h <;> simp [h]
      · exact List.mem_cons_of_mem _ (List.mem_cons_of_mem _ hm)
    · intro u hu
      rcases List.mem_cons.1 hu with rfl | hu
      · exact le_trans (le_max_left _ _) hmax
      · rcases List.mem_cons.1 hu with rfl | hu
        · exact le_trans (le_max_right _ _) hmax
        · exact hle u (List.mem_cons_of_mem _ hu)

theorem latest_eq_some {ts : List Instant} (ht : t ∈ ts) (hle : ∀ u ∈ ts, u.le t = true) :
    latest ts = some t := by
  cases ts with
  | nil => cases ht
  | cons t' ts =>
    obtain ⟨hmem, hmax⟩ := foldl_max ts t'
    exact congrArg some (le_antisymm (hle _ hmem) (hmax _ ht))

theorem latest_eq_some_iff {ts : List Instant} :
    latest ts = some t ↔ t ∈ ts ∧ ∀ u ∈ ts, u.le t = true := by
  constructor
  · intro h
    cases ts with
    | nil => cases h
    | cons t' ts =>
      obtain rfl := Option.some.inj h
      exact foldl_max ts t'
  · exact fun ⟨ht, hle⟩ => latest_eq_some ht hle

theorem latest_eq_none_iff {ts : List Instant} : latest ts = none ↔ ts = [] := by
  cases ts <;> simp [latest]

def count (t : Instant) : Int := t.seconds * Span.perSecond + t.nanos

theorem since_eq_count (hs : s.isLeap = false) (ht : t.isLeap = false) :
    s.since t = s.count - t.count := by
  have hb : s.leapBetween t = 0 := by simp [leapBetween, hs, ht]
  simp only [since, hb, count, Span.perSecond]
  omega

theorem since_neg (hs : s.isLeap = false) (ht : t.isLeap → t.seconds % 60 = 59)
    (h : ¬t.le s = true) : s.since t < 0 := by
  have hn : s.nanos < 1000000000 := Nat.lt_of_not_le (of_decide_eq_false hs)
  rw [le_iff] at h
  -- The leap second can only be counted if `t` is on another day, by a minute before midnight.
  have hleap : s.leapBetween t = 0 ∨ s.leapBetween t = 1 ∧ s.seconds + 1 < t.seconds := by
    unfold leapBetween
    split
    · split
      · next hsec hl =>
        have hlast := ht hl
        unfold secondOfDay perDay at hsec
        exact .inr ⟨rfl, by omega⟩
      · exact .inl rfl
    · simp [hs]
  unfold since Span.perSecond
  omega

theorem count_le_of_le (hs : s.isLeap = false) (h : s.le t = true) : s.count ≤ t.count := by
  have hn : s.nanos < 1000000000 := Nat.lt_of_not_le (of_decide_eq_false hs)
  rw [le_iff] at h
  simp only [count, Span.perSecond]
  omega

end ClusterFleet.Instant
