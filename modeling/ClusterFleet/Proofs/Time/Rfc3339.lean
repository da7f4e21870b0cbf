import ClusterFleet.Proofs.Time.Calendar
import ClusterFleet.Time.Rfc3339
import Mathlib.Tactic.SplitIfs

namespace ClusterFleet.Text.Decimal

theorem value_eq_ofDigitChars (ds : List Char) : value ds = Nat.ofDigitChars 10 ds 0 := by
  have h : (fun n c => n * 10 + digitValue c) =
      fun n (c : Char) => 10 * n + (c.toNat - '0'.toNat) := by
    funext n c
    simp only [digitValue]
    omega
  simp only [value, Nat.ofDigitChars, h]

theorem value_replicate_append (k : Nat) (ds : List Char) :
    value (List.replicate k '0' ++ ds) = value ds := by
  induction k with
  | zero => rfl
  | succ k ih => exact ih

theorem toList_padded (width n : Nat) : (padded width n).toList =
    List.replicate (width - (Nat.toDigits 10 n).length) '0' ++ Nat.toDigits 10 n := by
  simp [padded, ← Nat.toList_repr, String.length_toList]

theorem length_padded {width n : Nat} (hw : 0 < width) (hn : n < 10 ^ width) :
    (padded width n).toList.length = width := by
  have h := (Nat.length_toDigits_le_iff (by decide : 1 < 10) hw).2 hn
  rw [toList_padded, List.length_append, List.length_replicate]
  omega

theorem isDigit_padded (width n : Nat) : (padded width n).toList.all Char.isDigit := by
  rw [toList_padded, List.all_eq_true]
  intro c hc
  rcases List.mem_append.1 hc with hc | hc
  · rw [List.eq_of_mem_replicate hc]
    rfl
  · exact Nat.isDigit_of_mem_toDigits (by decide) (by decide) hc

theorem value_padded (width n : Nat) : value (padded width n).toList = n := by
  rw [toList_padded, value_replicate_append, value_eq_ofDigitChars]
  exact Nat.ofDigitChars_toDigits (by decide) (by decide)

theorem take?_padded {width n : Nat} (hw : 0 < width) (hn : n < 10 ^ width) (cs : List Char) :
    take? width ((padded width n).toList ++ cs) = some (n, cs) := by
  have hl := length_padded hw hn
  have ht : ((padded width n).toList ++ cs).take width = (padded width n).toList :=
    List.take_left' hl
  have hd : ((padded width n).toList ++ cs).drop width = cs := List.drop_left' hl
  simp only [take?, ht, hd, hl, isDigit_padded, value_padded, and_self, if_true]

end ClusterFleet.Text.Decimal

namespace ClusterFleet.Time
open Text

theorem daysInMonth_le (y : Int) (m : Nat) : Date.daysInMonth y m ≤ 31 := by
  unfold Date.daysInMonth
  split_ifs <;> omega

theorem date?_dateText {d : Date} (hd : d.isValid) (h₀ : 0 ≤ d.year) (h : d.year ≤ 9999)
    (cs : List Char) : date? ((dateText d).toList ++ cs) = some (d, cs) := by
  have hv := hd
  simp only [Date.isValid, Bool.and_eq_true, decide_eq_true_eq] at hv
  have hday := daysInMonth_le d.year d.month
  have hy := Decimal.take?_padded (by decide : 0 < 4) (by omega : d.year.toNat < 10 ^ 4)
  have hm := Decimal.take?_padded (by decide : 0 < 2) (by omega : d.month < 10 ^ 2)
  have hn := Decimal.take?_padded (by decide : 0 < 2) (by omega : d.day < 10 ^ 2)
  have hback : ((d.year.toNat : Nat) : Int) = d.year := Int.toNat_of_nonneg h₀
  simp [date?, dateText, yearText, h₀, h, expect?, hy, hm, hn, hback, hd]

theorem fraction?_cons_of_ne {c : Char} (hp : c ≠ '.') (cs : List Char) :
    fraction? (c :: cs) = some (0, c :: cs) := by
  unfold fraction?
  split
  · next h => exact absurd (List.cons.inj h).1 hp
  · rfl

theorem leap_cases (t : Instant) : t.isLeap = true ∧ leapSeconds t = 1 ∧ Span.perSecond ≤ t.nanos ∨
    t.isLeap = false ∧ leapSeconds t = 0 ∧ t.nanos < Span.perSecond := by
  by_cases h : t.isLeap
  · exact .inl ⟨h, by simp [leapSeconds, h], of_decide_eq_true h⟩
  · rw [Bool.not_eq_true] at h
    exact .inr ⟨h, by simp [leapSeconds, h], Nat.lt_of_not_le (of_decide_eq_false h)⟩

theorem fraction_lt {t : Instant} (hn : t.nanos < 2 * Span.perSecond) :
    t.nanos - leapSeconds t * Span.perSecond < 10 ^ 9 := by
  have hs : Span.perSecond = 10 ^ 9 := rfl
  rcases leap_cases t with ⟨-, h, hle⟩ | ⟨-, h, hlt⟩ <;> rw [h] <;> omega

theorem timeOfDay?_parts {t : Instant} {s : Nat} (hs : s < 86400) (hl : t.isLeap → s % 60 = 59) :
    timeOfDay? (s / 3600) (s / 60 % 60) (s % 60 + leapSeconds t)
      (t.nanos - leapSeconds t * Span.perSecond) = some (s, t.nanos) := by
  rcases leap_cases t with ⟨hleap, h, hle⟩ | ⟨-, h, hlt⟩
  · have hlast := hl hleap
    rw [h, timeOfDay?, if_neg (by omega), if_pos (by omega)]
    congr 2
    · omega
    · omega
  · rw [h, timeOfDay?, if_neg (by omega), if_neg (by omega)]
    congr 2
    omega

section
variable {c : Char} (hc : c.isDigit = false) (hp : c ≠ '.')
include hc

theorem fraction?_padded {width n : Nat} (hw : 0 < width) (hw' : width ≤ 9) (hn : n < 10 ^ width)
    (cs : List Char) : fraction? ('.' :: ((Decimal.padded width n).toList ++ c :: cs)) =
      some (n * 10 ^ (9 - width), c :: cs) := by
  have hd : ∀ c ∈ (Decimal.padded width n).toList, c.isDigit = true :=
    List.all_eq_true.1 (Decimal.isDigit_padded width n)
  have hl := Decimal.length_padded hw hn
  have ht : ((Decimal.padded width n).toList ++ c :: cs).takeWhile Char.isDigit =
      (Decimal.padded width n).toList := by
    rw [List.takeWhile_append_of_pos hd]
    simp [hc]
  have hr : ((Decimal.padded width n).toList ++ c :: cs).dropWhile Char.isDigit = c :: cs := by
    rw [List.dropWhile_append_of_pos hd]
    simp [hc]
  have hk : (Decimal.padded width n).toList.take 9 = (Decimal.padded width n).toList :=
    List.take_of_length_le (by omega)
  have hne : (Decimal.padded width n).toList.isEmpty = false := by
    rw [List.isEmpty_eq_false_iff]
    intro h
    rw [h] at hl
    simp at hl
    omega
  simp only [fraction?, ht, hr, hk, hne, hl, Decimal.value_padded, Bool.false_eq_true, if_false]
  rfl

include hp

theorem fraction?_fractionText {n : Nat} (hn : n < 10 ^ 9) (cs : List Char) :
    fraction? ((fractionText n).toList ++ c :: cs) = some (n, c :: cs) := by
  unfold fractionText
  split_ifs with h₀ h₆ h₃
  · simp [fraction?_cons_of_ne hp, h₀]
  · have h := fraction?_padded hc (by decide : 0 < 3) (by decide)
      (by omega : n / 1000000 < 10 ^ 3) cs
    have he : n / 1000000 * 10 ^ (9 - 3) = n := by omega
    rw [he] at h
    simpa using h
  · have h := fraction?_padded hc (by decide : 0 < 6) (by decide)
      (by omega : n / 1000 < 10 ^ 6) cs
    have he : n / 1000 * 10 ^ (9 - 6) = n := by omega
    rw [he] at h
    simpa using h
  · have h := fraction?_padded hc (by decide : 0 < 9) (by decide) hn cs
    simpa using h

theorem clock?_padded {h m s f : Nat} {time : Nat × Nat} (hh : h < 10 ^ 2) (hm : m < 10 ^ 2)
    (hs : s < 10 ^ 2) (hf : f < 10 ^ 9) (ht : timeOfDay? h m s f = some time) (cs : List Char) :
    clock? ((Decimal.padded 2 h ++ ":" ++ Decimal.padded 2 m ++ ":" ++ Decimal.padded 2 s).toList ++
      ((fractionText f).toList ++ c :: cs)) = some (time, c :: cs) := by
  have hh' := Decimal.take?_padded (by decide : 0 < 2) hh
  have hm' := Decimal.take?_padded (by decide : 0 < 2) hm
  have hs' := Decimal.take?_padded (by decide : 0 < 2) hs
  have hf' := fraction?_fractionText hc hp hf cs
  simp [clock?, expect?, hh', hm', hs', hf', ht]

/-- A leap second is written as second 60, and read as second 59 and a second more. -/
theorem clock?_clockText {t : Instant} (hn : t.nanos < 2 * Span.perSecond)
    (hl : t.isLeap → t.secondOfDay.toNat % 60 = 59) (cs : List Char) :
    clock? ((clockText t).toList ++
      ((fractionText (t.nanos - leapSeconds t * Span.perSecond)).toList ++ c :: cs)) =
      some ((t.secondOfDay.toNat, t.nanos), c :: cs) := by
  have hs : t.secondOfDay.toNat < 86400 := by
    unfold Instant.secondOfDay Instant.perDay
    omega
  have hsec : t.secondOfDay.toNat % 60 + leapSeconds t < 10 ^ 2 := by
    rcases leap_cases t with ⟨-, h, -⟩ | ⟨-, h, -⟩ <;> omega
  exact clock?_padded hc hp (by omega) (by omega) hsec (fraction_lt hn) (timeOfDay?_parts hs hl) cs

end

def offsetText (minutes : Int) : String :=
  (if minutes < 0 then "-" else "+") ++ Decimal.padded 2 (minutes.natAbs / 60) ++ ":" ++
    Decimal.padded 2 (minutes.natAbs % 60)

theorem offset?_cons {c : Char} {sign : Int} {h m : Nat} (hz : isZulu c = false)
    (hsign : ∀ cs, sign? (c :: cs) = some (sign, cs)) (hh : h ≤ 23) (hm : m ≤ 59) :
    offset? (c :: (Decimal.padded 2 h ++ ":" ++ Decimal.padded 2 m).toList) =
      some (sign * (h * 3600 + m * 60 : Nat), []) := by
  have hh' := Decimal.take?_padded (by decide : 0 < 2) (by omega : h < 10 ^ 2)
  have hm' := Decimal.take?_padded (by decide : 0 < 2) (by omega : m < 10 ^ 2) []
  rw [List.append_nil] at hm'
  have hin : ¬(h > 23 ∨ m > 59) := by omega
  simp [offset?, hz, hsign, expect?, hh', hm', hin]

theorem exists_offsetText {minutes : Int} (h : minutes.natAbs < 1440) : ∃ c cs,
    (offsetText minutes).toList = c :: cs ∧ c.isDigit = false ∧ c ≠ '.' ∧
      offset? (c :: cs) = some (60 * minutes, []) := by
  have hh : minutes.natAbs / 60 ≤ 23 := by omega
  have hm : minutes.natAbs % 60 ≤ 59 := by omega
  by_cases hneg : minutes < 0
  · have ho := offset?_cons (c := '-') rfl (fun _ => rfl) hh hm
    have hv : -1 * ((minutes.natAbs / 60 * 3600 + minutes.natAbs % 60 * 60 : Nat) : Int) =
        60 * minutes := by omega
    rw [hv] at ho
    refine ⟨'-', _, ?_, rfl, by decide, ho⟩
    simp [offsetText, hneg]
  · have ho := offset?_cons (c := '+') rfl (fun _ => rfl) hh hm
    have hv : 1 * ((minutes.natAbs / 60 * 3600 + minutes.natAbs % 60 * 60 : Nat) : Int) =
        60 * minutes := by omega
    rw [hv] at ho
    refine ⟨'+', _, ?_, rfl, by decide, ho⟩
    simp [offsetText, hneg]

/-- The text of `t` where clocks are so many minutes ahead of UTC. -/
def textAt (minutes : Int) (t : Instant) : String :=
  let u := t.addSeconds (60 * minutes)
  dateTimeText u ++ fractionText (u.nanos - leapSeconds u * Span.perSecond) ++ offsetText minutes

theorem ofRfc3339Chars?_shown {u : Instant} {c : Char} {cs : List Char} {off : Int}
    (hc : c.isDigit = false) (hp : c ≠ '.') (ho : offset? (c :: cs) = some (off, []))
    (hn : u.nanos < 2 * Span.perSecond) (hl : u.isLeap → u.secondOfDay.toNat % 60 = 59)
    (h₀ : 0 ≤ (Date.ofDays u.day).year) (h : (Date.ofDays u.day).year ≤ 9999) :
    ofRfc3339Chars? ((dateTimeText u).toList ++
      ((fractionText (u.nanos - leapSeconds u * Span.perSecond)).toList ++ c :: cs)) =
      some (instant (Date.ofDays u.day) (u.secondOfDay.toNat, u.nanos) off) := by
  have hd := date?_dateText (Date.isValid_ofDays u.day) h₀ h
  have hclock := clock?_clockText hc hp hn hl cs
  simp [ofRfc3339Chars?, dateTimeText, hd, separator?, hclock, ho]

theorem instant_addSeconds (t : Instant) (n : Int) :
    instant (Date.ofDays (t.addSeconds n).day)
      ((t.addSeconds n).secondOfDay.toNat, (t.addSeconds n).nanos) n = t := by
  have hs : (((t.addSeconds n).secondOfDay.toNat : Nat) : Int) = (t.addSeconds n).secondOfDay :=
    Int.toNat_of_nonneg (Int.emod_nonneg _ (by decide))
  have hsum : (t.addSeconds n).day * Instant.perDay + (t.addSeconds n).secondOfDay =
      t.seconds + n := Int.ediv_mul_add_emod _ _
  have hn : (t.addSeconds n).nanos = t.nanos := rfl
  simp [instant, Date.toDays_ofDays, hs, hsum, hn]

/-- An instant is read from the text that it has in any zone. -/
theorem ofRfc3339?_textAt {minutes : Int} {t : Instant} (hm : minutes.natAbs < 1440)
    (hn : t.nanos < 2 * Span.perSecond) (hl : t.isLeap → t.seconds % 60 = 59)
    (h₀ : 0 ≤ (Date.ofDays (t.addSeconds (60 * minutes)).day).year)
    (h : (Date.ofDays (t.addSeconds (60 * minutes)).day).year ≤ 9999) :
    ofRfc3339? (textAt minutes t) = some t := by
  obtain ⟨c, cs, hoff, hc, hp, ho⟩ := exists_offsetText hm
  -- An offset of whole minutes leaves the seconds of a minute alone.
  have hl' : (t.addSeconds (60 * minutes)).isLeap →
      (t.addSeconds (60 * minutes)).secondOfDay.toNat % 60 = 59 := by
    intro hleap
    have hlast := hl hleap
    simp only [Instant.secondOfDay, Instant.addSeconds, Instant.perDay]
    omega
  have hshown := ofRfc3339Chars?_shown (u := t.addSeconds (60 * minutes)) hc hp ho hn hl' h₀ h
  rw [ofRfc3339?, textAt, String.toList_append, String.toList_append, hoff, List.append_assoc,
    hshown, instant_addSeconds]

theorem textAt_zero (t : Instant) : textAt 0 t = rfc3339 t := by
  have h : t.addSeconds (60 * 0) = t := by simp [Instant.addSeconds]
  have ho : offsetText 0 = "+00:00" := by decide
  rw [textAt, rfc3339, h, ho]

/-- Not in a leap second, and in a year of four digits. -/
structure IsOrdinary (t : Instant) : Prop where
  leap : t.isLeap = false
  year_nonneg : 0 ≤ (Date.ofDays t.day).year
  year_le : (Date.ofDays t.day).year ≤ 9999

theorem ofRfc3339?_rfc3339 {t : Instant} (h : IsOrdinary t) : ofRfc3339? (rfc3339 t) = some t := by
  have hn : t.nanos < 2 * Span.perSecond := by
    have hlt : t.nanos < Span.perSecond := Nat.lt_of_not_le (of_decide_eq_false h.leap)
    omega
  have hz : t.addSeconds (60 * 0) = t := by simp [Instant.addSeconds]
  rw [← textAt_zero]
  refine ofRfc3339?_textAt (by decide) hn ?_ ?_ ?_
  · simp [h.leap]
  · rw [hz]
    exact h.year_nonneg
  · rw [hz]
    exact h.year_le

end ClusterFleet.Time
