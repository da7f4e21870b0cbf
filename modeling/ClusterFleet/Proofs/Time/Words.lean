import ClusterFleet.Proofs.Time.Range
import Mathlib.Algebra.Group.Int.Defs

namespace ClusterFleet

def word? (n : Int) : Option Int := if -2 ^ 63 ≤ n ∧ n < 2 ^ 63 then some n else none

theorem word?_eq {n : Int} (h : n.natAbs ≤ 2 ^ 62) : word? n = some n := if_pos (by omega)

/-- A time forwards or backwards: whole seconds, rounded down, and nanoseconds on top. -/
structure Delta where
  seconds : Int
  nanos : Nat
  nanos_lt : nanos < Span.perSecond

namespace Delta

def total (d : Delta) : Int := d.seconds * Span.perSecond + d.nanos

/-- The milliseconds of a delta are a word, either way. -/
def longest : Int := (2 ^ 63 - 1) * 1000000

def ofParts? (seconds : Int) (nanos : Nat) : Option Delta :=
  if h : nanos < Span.perSecond then
    if (seconds * Span.perSecond + nanos).natAbs ≤ longest then some ⟨seconds, nanos, h⟩ else none
  else none

def ofDays? (n : Int) : Option Delta := do
  let days ← word? n
  let seconds ← word? (days * Instant.perDay)
  ofParts? seconds 0

/-- Seconds, and nanoseconds that may make up for more of them, or for less. -/
def carry? (seconds nanos : Int) : Option Delta := do
  let seconds ← word? (seconds + nanos / Span.perSecond)
  ofParts? seconds (nanos % Span.perSecond).toNat

def ofClocks? (s t : Instant) : Option Delta := do
  let seconds ← word? (s.secondOfDay - t.secondOfDay)
  let nanos ← word? (s.nanos - t.nanos)
  let seconds ← word? (seconds + s.leapBetween t)
  carry? seconds nanos

def add? (d e : Delta) : Option Delta := do
  let seconds ← word? (d.seconds + e.seconds)
  let nanos ← word? (d.nanos + e.nanos)
  carry? seconds nanos

def between? (s t : Instant) : Option Delta := do
  let days ← ofDays? (s.day - t.day)
  let clocks ← ofClocks? s t
  days.add? clocks

def span? (d : Delta) : Option Span :=
  if d.seconds < 0 then none else some ⟨d.seconds.toNat * Span.perSecond + d.nanos⟩

theorem ofParts?_eq {seconds : Int} {nanos : Nat} (hs : seconds.natAbs ≤ 2 ^ 50)
    (hn : nanos < Span.perSecond) : ofParts? seconds nanos = some ⟨seconds, nanos, hn⟩ := by
  rw [ofParts?, dif_pos hn, if_pos]
  unfold longest Span.perSecond at *
  omega

theorem ofDays?_eq {n : Int} (hn : n.natAbs ≤ 2 ^ 30) :
    ofDays? n = some ⟨n * Instant.perDay, 0, by decide⟩ := by
  have hword : word? n = some n := word?_eq (by omega)
  have hs : (n * Instant.perDay).natAbs ≤ 2 ^ 50 := by
    unfold Instant.perDay
    omega
  have hword' : word? (n * Instant.perDay) = some (n * Instant.perDay) := word?_eq (by omega)
  simp only [ofDays?, hword, hword', Option.bind_eq_bind, Option.bind_some]
  exact ofParts?_eq hs (by decide)

variable {s t : Instant}

theorem secondOfDay_range (t : Instant) : 0 ≤ t.secondOfDay ∧ t.secondOfDay < 86400 := by
  unfold Instant.secondOfDay Instant.perDay
  omega

theorem leapBetween_range (s t : Instant) : (s.leapBetween t).natAbs ≤ 1 := by
  unfold Instant.leapBetween
  split_ifs <;> decide

theorem exists_carry? {a b : Int} (ha : a.natAbs ≤ 2 ^ 49) (hb : b.natAbs ≤ 2 ^ 31) :
    ∃ d, carry? a b = some d ∧ d.seconds.natAbs ≤ a.natAbs + 3 ∧
      d.total = a * Span.perSecond + b := by
  have hq : (b / Span.perSecond).natAbs ≤ 3 := by
    unfold Span.perSecond
    omega
  have hr : (b % Span.perSecond).toNat < Span.perSecond := by
    unfold Span.perSecond
    omega
  have hword : word? (a + b / Span.perSecond) = some (a + b / Span.perSecond) :=
    word?_eq (by omega)
  have hsplit : b / Span.perSecond * Span.perSecond + b % Span.perSecond = b :=
    Int.ediv_mul_add_emod _ _
  have hback : ((b % Span.perSecond).toNat : Int) = b % Span.perSecond :=
    Int.toNat_of_nonneg (Int.emod_nonneg _ (by decide))
  simp only [carry?, hword, Option.bind_eq_bind, Option.bind_some]
  refine ⟨_, ofParts?_eq (by omega) hr, by simp only; omega, ?_⟩
  simp only [total, hback, Int.add_mul]
  omega

theorem exists_ofClocks? (hs : s.nanos < 2 * Span.perSecond) (ht : t.nanos < 2 * Span.perSecond) :
    ∃ d, ofClocks? s t = some d ∧ d.seconds.natAbs ≤ 2 ^ 20 ∧
      d.total = (s.secondOfDay - t.secondOfDay + s.leapBetween t) * Span.perSecond +
        (s.nanos - t.nanos) := by
  have hsec := secondOfDay_range s
  have hsec' := secondOfDay_range t
  have hleap := leapBetween_range s t
  have hnanos : (s.nanos - t.nanos : Int).natAbs ≤ 2 ^ 31 := by
    unfold Span.perSecond at hs ht
    omega
  have hword : word? (s.secondOfDay - t.secondOfDay) = some (s.secondOfDay - t.secondOfDay) :=
    word?_eq (by omega)
  have hword' : word? (s.nanos - t.nanos) = some (s.nanos - t.nanos : Int) := word?_eq (by omega)
  have hword'' : word? (s.secondOfDay - t.secondOfDay + s.leapBetween t) =
      some (s.secondOfDay - t.secondOfDay + s.leapBetween t) := word?_eq (by omega)
  obtain ⟨d, hd, hsmall, htotal⟩ :=
    exists_carry? (a := s.secondOfDay - t.secondOfDay + s.leapBetween t) (by omega) hnanos
  refine ⟨d, ?_, by omega, htotal⟩
  simp only [ofClocks?, hword, hword', hword'', Option.bind_eq_bind, Option.bind_some, hd]

theorem exists_add? {d e : Delta} (hd : d.seconds.natAbs ≤ 2 ^ 48)
    (he : e.seconds.natAbs ≤ 2 ^ 48) : ∃ f, d.add? e = some f ∧ f.total = d.total + e.total := by
  have hnanos : ((d.nanos + e.nanos : Nat) : Int).natAbs ≤ 2 ^ 31 := by
    have hd' := d.nanos_lt
    have he' := e.nanos_lt
    unfold Span.perSecond at hd' he'
    omega
  have hword : word? (d.seconds + e.seconds) = some (d.seconds + e.seconds) := word?_eq (by omega)
  have hword' : word? (d.nanos + e.nanos) = some (d.nanos + e.nanos : Int) := word?_eq (by omega)
  obtain ⟨f, hf, -, htotal⟩ := exists_carry? (a := d.seconds + e.seconds) (by omega) hnanos
  refine ⟨f, ?_, ?_⟩
  · simp only [add?, hword, hword', Option.bind_eq_bind, Option.bind_some]
    exact hf
  · rw [htotal]
    simp only [total, Int.add_mul]
    omega

theorem exists_between? (hs : s.isValid) (ht : t.isValid) :
    ∃ d, between? s t = some d ∧ d.total = s.since t := by
  rw [Instant.isValid_iff, Instant.firstSecond_eq, Instant.lastSecond_eq] at hs ht
  have hdays : (s.day - t.day).natAbs ≤ 2 ^ 30 := by
    unfold Instant.day Instant.perDay
    omega
  obtain ⟨d, hd, hsmall, htotal⟩ := exists_ofClocks? hs.2.2.1 ht.2.2.1
  have hsmall' : ((s.day - t.day) * Instant.perDay).natAbs ≤ 2 ^ 48 := by
    unfold Instant.perDay
    omega
  obtain ⟨f, hf, hsum⟩ := exists_add? (d := ⟨(s.day - t.day) * Instant.perDay, 0, by decide⟩)
    (e := d) hsmall' (by omega)
  refine ⟨f, ?_, ?_⟩
  · simp only [between?, ofDays?_eq hdays, hd, Option.bind_eq_bind, Option.bind_some, hf]
  · have hsplit : s.day * Instant.perDay + s.secondOfDay = s.seconds := Int.ediv_mul_add_emod _ _
    have hsplit' : t.day * Instant.perDay + t.secondOfDay = t.seconds := Int.ediv_mul_add_emod _ _
    rw [hsum, htotal]
    unfold total Instant.since Span.perSecond Instant.perDay at *
    simp only
    omega

theorem span?_eq (d : Delta) :
    d.span? = if 0 ≤ d.total then some ⟨d.total.toNat⟩ else none := by
  have hn := d.nanos_lt
  unfold span? total Span.perSecond at *
  by_cases h : d.seconds < 0
  · rw [if_pos h, if_neg (by omega)]
  · rw [if_neg h, if_pos (by omega)]
    congr 2
    omega

/-- The time between instants in range is reckoned without a step out of range, and is exact. -/
theorem between?_elapsed? (hs : s.isValid) (ht : t.isValid) :
    (between? s t).map span? = some (s.elapsed? t) := by
  obtain ⟨d, hd, htotal⟩ := exists_between? hs ht
  rw [hd, Option.map_some, span?_eq, htotal]
  rfl

end Delta

namespace Span

def borrow? (s t : Span) : Option Span :=
  if s.seconds < t.seconds then none
  else if t.fraction ≤ s.fraction then
    some ⟨(s.seconds - t.seconds) * perSecond + (s.fraction - t.fraction)⟩
  else if s.seconds = t.seconds then none
  else some ⟨(s.seconds - t.seconds - 1) * perSecond + (s.fraction + perSecond - t.fraction)⟩

theorem borrow?_eq_sub? (s t : Span) : s.borrow? t = s.sub? t := by
  unfold borrow? sub? seconds fraction perSecond
  split_ifs <;> first | omega | (congr 2; omega) | rfl

end Span
end ClusterFleet
