import ClusterFleet.Time.Calendar
import Mathlib.Tactic.IntervalCases

namespace ClusterFleet.Time.Date

/-- The March year of a cycle of 400 that a day of the cycle lies in. -/
def yearOfEra (n : Int) : Int := (n - n / 1460 + n / 36524 - n / 146096) / 365

/-- The day of the cycle on which a March year begins. -/
def yearStart (y : Int) : Int := 365 * y + y / 4 - y / 100

def ofMarch (y : Int) (d : Nat) : Date :=
  let m := (5 * d + 2) / 153
  let month := if m < 10 then m + 3 else m - 9
  ⟨if month ≤ 2 then y + 1 else y, month, d - monthStart m + 1⟩

theorem ofDays_eq (n : Int) :
    ofDays n = ofMarch (yearOfEra ((n + 719468) % 146097) + (n + 719468) / 146097 * 400)
      ((n + 719468) % 146097 - yearStart (yearOfEra ((n + 719468) % 146097))).toNat :=
  rfl

theorem exists_parts {n : Int} (h₀ : 0 ≤ n) (h : n < 146097) : ∃ c q j i : Int,
    n = 36524 * c + (1461 * q + 365 * j + i) ∧ (0 ≤ c ∧ c ≤ 3) ∧ (0 ≤ q ∧ q ≤ 24) ∧
      (0 ≤ j ∧ j ≤ 3) ∧ (0 ≤ i ∧ i ≤ 365) ∧ (i = 365 → j = 3 ∧ (q = 24 → c = 3)) := by
  obtain ⟨c, r, rfl, hc, hr⟩ : ∃ c r : Int, n = 36524 * c + r ∧ (0 ≤ c ∧ c ≤ 3) ∧
      (0 ≤ r ∧ r ≤ 36524 ∧ (r = 36524 → c = 3)) :=
    ⟨min (n / 36524) 3, n - 36524 * min (n / 36524) 3, by omega, by omega, by omega⟩
  obtain ⟨q, s, rfl, hq, hs⟩ : ∃ q s : Int, r = 1461 * q + s ∧ (0 ≤ q ∧ q ≤ 24) ∧
      (0 ≤ s ∧ s ≤ 1460) := ⟨r / 1461, r % 1461, by omega, by omega, by omega⟩
  exact ⟨c, q, min (s / 365) 3, s - 365 * min (s / 365) 3, by omega, hc, hq, by omega, by omega,
    by omega⟩

/-- The last day of the cycle makes up for the century that it would begin. -/
theorem century {c r : Int} (hc : 0 ≤ c ∧ c ≤ 3) (hr : 0 ≤ r ∧ r ≤ 36524)
    (hlast : r = 36524 → c = 3) : (36524 * c + r) / 36524 - (36524 * c + r) / 146096 = c := by
  by_cases h : r = 36524
  · obtain rfl := hlast h
    subst h
    rfl
  · omega

theorem yearOfEra_parts {c q j i : Int} (hc : 0 ≤ c ∧ c ≤ 3) (hq : 0 ≤ q ∧ q ≤ 24)
    (hj : 0 ≤ j ∧ j ≤ 3) (hi : 0 ≤ i ∧ i ≤ 365) (hleap : i = 365 → j = 3 ∧ (q = 24 → c = 3)) :
    yearOfEra (36524 * c + (1461 * q + 365 * j + i)) = 100 * c + 4 * q + j := by
  have hf := century (r := 1461 * q + 365 * j + i) hc (by omega) (by omega)
  have he : (36524 * c + (1461 * q + 365 * j + i)) / 1460 =
      25 * c + q + (24 * c + q + 365 * j + i) / 1460 := by omega
  unfold yearOfEra
  omega

theorem day_of_era {n : Int} (h₀ : 0 ≤ n) (h : n < 146097) :
    (0 ≤ yearOfEra n ∧ yearOfEra n < 400) ∧
    (0 ≤ n - yearStart (yearOfEra n) ∧ n - yearStart (yearOfEra n) ≤ 365) ∧
    (n - yearStart (yearOfEra n) = 365 → isLeapYear (yearOfEra n + 1)) := by
  obtain ⟨c, q, j, i, rfl, hc, hq, hj, hi, hleap⟩ := exists_parts h₀ h
  rw [yearOfEra_parts hc hq hj hi hleap]
  have hs : yearStart (100 * c + 4 * q + j) = 36524 * c + 1461 * q + 365 * j := by
    have h4 : (100 * c + 4 * q + j) / 4 = 25 * c + q := by omega
    have h100 : (100 * c + 4 * q + j) / 100 = c := by omega
    unfold yearStart
    omega
  rw [hs]
  refine ⟨by omega, by omega, ?_⟩
  intro hd
  obtain ⟨rfl, hq'⟩ := hleap (by omega)
  simp only [isLeapYear, Bool.and_eq_true, Bool.or_eq_true, decide_eq_true_eq]
  omega

theorem isValid_ofMarch {y : Int} {d : Nat} (hd : d ≤ 365) (hleap : d = 365 → isLeapYear (y + 1)) :
    (ofMarch y d).isValid := by
  obtain ⟨m, hm⟩ : ∃ m, m = (5 * d + 2) / 153 := ⟨_, rfl⟩
  have hm' : m ≤ 11 := by omega
  simp only [isValid, ofMarch, ← hm]
  by_cases hfeb : m = 11
  · subst hfeb
    by_cases hl : isLeapYear (y + 1)
    · simp [monthStart, daysInMonth, hl]
      omega
    · have hd' : d ≠ 365 := fun h => hl (hleap h)
      simp [monthStart, daysInMonth, hl]
      omega
  · interval_cases m <;> simp [monthStart, daysInMonth] at hfeb ⊢ <;> omega

theorem toDays_ofMarch {y : Int} {d : Nat} (hd : d ≤ 365) :
    (ofMarch y d).toDays = y / 400 * 146097 + (yearStart (y % 400) + d) - 719468 := by
  obtain ⟨m, hm⟩ : ∃ m, m = (5 * d + 2) / 153 := ⟨_, rfl⟩
  have hm' : m ≤ 11 := by omega
  have hstart : monthStart m ≤ d := by
    unfold monthStart
    omega
  simp only [toDays, ofMarch, ← hm, yearStart]
  -- January and February are counted with the year before.
  by_cases h : m < 10
  · have hmonth : ¬m + 3 ≤ 2 := by omega
    simp only [h, hmonth, if_true, if_false, Nat.add_sub_cancel]
    omega
  · have hmonth : m - 9 ≤ 2 := by omega
    have hback : m - 9 + 9 = m := by omega
    simp only [h, hmonth, hback, if_true, if_false, Int.add_sub_cancel]
    omega

theorem isLeapYear_add_era (y e : Int) : isLeapYear (y + e * 400) = isLeapYear y := by
  simp only [isLeapYear]
  have h₁ : (y + e * 400) % 4 = y % 4 := by omega
  have h₂ : (y + e * 400) % 100 = y % 100 := by omega
  have h₃ : (y + e * 400) % 400 = y % 400 := by omega
  rw [h₁, h₂, h₃]

theorem isValid_ofDays (n : Int) : (ofDays n).isValid := by
  obtain ⟨_, hd, hleap⟩ := day_of_era (n := (n + 719468) % 146097) (by omega) (by omega)
  rw [ofDays_eq]
  refine isValid_ofMarch (by omega) ?_
  intro h
  rw [Int.add_right_comm, isLeapYear_add_era]
  exact hleap (by omega)

theorem toDays_ofDays (n : Int) : (ofDays n).toDays = n := by
  obtain ⟨hy, hd, _⟩ := day_of_era (n := (n + 719468) % 146097) (by omega) (by omega)
  have hera : (yearOfEra ((n + 719468) % 146097) + (n + 719468) / 146097 * 400) / 400 =
      (n + 719468) / 146097 := by omega
  have hyear : (yearOfEra ((n + 719468) % 146097) + (n + 719468) / 146097 * 400) % 400 =
      yearOfEra ((n + 719468) % 146097) := by omega
  rw [ofDays_eq, toDays_ofMarch (by omega), hera, hyear]
  omega

end ClusterFleet.Time.Date
