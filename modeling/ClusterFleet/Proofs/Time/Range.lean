import ClusterFleet.Time.Rfc3339
import Mathlib.Algebra.Group.Nat.Defs
import Mathlib.Tactic.SplitIfs

namespace ClusterFleet

namespace Instant

theorem isValid_iff {t : Instant} : t.isValid ↔ firstSecond ≤ t.seconds ∧ t.seconds ≤ lastSecond ∧
    t.nanos < 2 * Span.perSecond ∧ (t.isLeap → t.seconds % 60 = 59) := by
  simp only [isValid, Bool.and_eq_true, Bool.or_eq_true, Bool.not_eq_true', decide_eq_true_eq,
    and_assoc, ← Bool.not_eq_true, ← Decidable.imp_iff_not_or]

theorem firstSecond_eq : firstSecond = -8334601228800 := by decide

theorem lastSecond_eq : lastSecond = 8210266876799 := by decide

end Instant

namespace Text.Decimal

theorem foldl_value_lt {ds : List Char} (h : ds.all Char.isDigit) (n : Nat) :
    ds.foldl (fun n c => n * 10 + digitValue c) n < (n + 1) * 10 ^ ds.length := by
  induction ds generalizing n with
  | nil => simp
  | cons d ds ih =>
    rw [List.all_cons, Bool.and_eq_true] at h
    have hd : digitValue d < 10 := by
      have hle : '0'.toNat ≤ d.toNat ∧ d.toNat ≤ '9'.toNat := Char.isDigit_iff_toNat.1 h.1
      unfold digitValue
      simp at hle ⊢
      omega
    calc ds.foldl (fun n c => n * 10 + digitValue c) (n * 10 + digitValue d)
        < (n * 10 + digitValue d + 1) * 10 ^ ds.length := ih h.2 _
      _ ≤ ((n + 1) * 10) * 10 ^ ds.length := Nat.mul_le_mul_right _ (by omega)
      _ = (n + 1) * 10 ^ (d :: ds).length := by
        rw [List.length_cons, Nat.pow_succ, Nat.mul_assoc, Nat.mul_comm 10]

theorem value_lt {ds : List Char} (h : ds.all Char.isDigit) : value ds < 10 ^ ds.length := by
  have hlt := foldl_value_lt h 0
  rwa [Nat.zero_add, Nat.one_mul] at hlt

theorem take?_lt {width n : Nat} {cs rest : List Char} (h : take? width cs = some (n, rest)) :
    n < 10 ^ width := by
  unfold take? at h
  simp only [Option.ite_none_right_eq_some, Option.some.injEq, Prod.mk.injEq] at h
  obtain ⟨⟨hl, hd⟩, rfl, -⟩ := h
  have hlt := value_lt hd
  rwa [hl] at hlt

end Text.Decimal

namespace Time
open Text

variable {cs rest : List Char}

theorem date?_range {d : Date} (h : date? cs = some (d, rest)) :
    d.isValid ∧ 0 ≤ d.year ∧ d.year ≤ 9999 := by
  simp only [date?, Option.bind_eq_bind, Option.bind_eq_some_iff, Option.ite_none_right_eq_some,
    Option.some.injEq, Prod.mk.injEq, Prod.exists] at h
  obtain ⟨y, _, hy, _, _, m, _, -, _, _, n, _, -, hv, rfl, -⟩ := h
  have hlt := Decimal.take?_lt hy
  exact ⟨hv, by simp, by simp; omega⟩

theorem fraction?_lt {f : Nat} (h : fraction? cs = some (f, rest)) : f < 10 ^ 9 := by
  unfold fraction? at h
  split at h
  · next ds =>
    simp only [Option.ite_none_left_eq_some, Option.some.injEq, Prod.mk.injEq] at h
    obtain ⟨-, rfl, -⟩ := h
    have hd : ((ds.takeWhile Char.isDigit).take 9).all Char.isDigit := by
      rw [List.all_eq_true]
      exact fun c hc => List.all_eq_true.1 List.all_takeWhile c (List.mem_of_mem_take hc)
    have hl : ((ds.takeWhile Char.isDigit).take 9).length ≤ 9 := List.length_take_le _ _
    generalize (ds.takeWhile Char.isDigit).take 9 = kept at hd hl ⊢
    calc Decimal.value kept * 10 ^ (9 - kept.length)
        < 10 ^ kept.length * 10 ^ (9 - kept.length) :=
          Nat.mul_lt_mul_of_pos_right (Decimal.value_lt hd) (Nat.pow_pos (by decide))
      _ = 10 ^ 9 := by
        rw [← Nat.pow_add]
        congr 1
        omega
  · simp only [Option.some.injEq, Prod.mk.injEq] at h
    omega

/-- Seconds and nanoseconds of a day; second 59 of a minute may be a leap second. -/
structure IsTimeOfDay (time : Nat × Nat) : Prop where
  second : time.1 < 86400
  nanos : time.2 < 2 * Span.perSecond
  leap : Span.perSecond ≤ time.2 → time.1 % 60 = 59

theorem timeOfDay?_range {h m s f : Nat} {time : Nat × Nat} (hf : f < 10 ^ 9)
    (ht : timeOfDay? h m s f = some time) : IsTimeOfDay time := by
  have hsec : Span.perSecond = 10 ^ 9 := rfl
  unfold timeOfDay? at ht
  split_ifs at ht with hout hs
  · obtain rfl := Option.some.inj ht
    exact ⟨by simp only; omega, by simp only; omega, fun _ => by simp only; omega⟩
  · obtain rfl := Option.some.inj ht
    exact ⟨by simp only; omega, by simp only; omega, fun hle => by simp only at hle; omega⟩

theorem clock?_range {time : Nat × Nat} (h : clock? cs = some (time, rest)) : IsTimeOfDay time := by
  simp only [clock?, Option.bind_eq_bind, Option.bind_eq_some_iff, Prod.exists] at h
  obtain ⟨_, _, -, _, -, _, _, -, _, -, _, _, -, _, _, hf, a, b, ht, hr⟩ := h
  obtain ⟨rfl, -⟩ := Prod.mk.inj (Option.some.inj hr)
  exact timeOfDay?_range (fraction?_lt hf) ht

theorem sign?_range {sign : Int} (h : sign? cs = some (sign, rest)) : sign = 1 ∨ sign = -1 := by
  unfold sign? at h
  split at h
  · exact .inl (Prod.mk.inj (Option.some.inj h)).1.symm
  · exact .inr (Prod.mk.inj (Option.some.inj h)).1.symm
  · exact .inr (Prod.mk.inj (Option.some.inj h)).1.symm
  · cases h

theorem offset?_range {off : Int} (h : offset? cs = some (off, rest)) :
    off.natAbs < 86400 ∧ off % 60 = 0 := by
  cases cs with
  | nil => cases h
  | cons c cs =>
    simp only [offset?] at h
    split at h
    · obtain ⟨rfl, -⟩ := Prod.mk.inj (Option.some.inj h)
      decide
    · simp only [Option.bind_eq_bind, Option.bind_eq_some_iff, Prod.exists,
        Option.ite_none_left_eq_some, Option.some.injEq, Prod.mk.injEq] at h
      obtain ⟨sign, _, hs, hh, _, -, _, -, m, _, -, hin, rfl, -⟩ := h
      rcases sign?_range hs with rfl | rfl <;> omega

theorem toDays_range {d : Date} (hd : d.isValid) (h₀ : 0 ≤ d.year) (h : d.year ≤ 9999) :
    -800000 ≤ d.toDays ∧ d.toDays ≤ 3000000 := by
  have hday : Date.daysInMonth d.year d.month ≤ 31 := by
    unfold Date.daysInMonth
    split_ifs <;> omega
  simp only [Date.isValid, Bool.and_eq_true, decide_eq_true_eq] at hd
  simp only [Date.toDays, Date.monthStart]
  split_ifs <;> omega

theorem isValid_instant {d : Date} {time : Nat × Nat} {off : Int} (hd : d.isValid)
    (h₀ : 0 ≤ d.year) (h : d.year ≤ 9999) (ht : IsTimeOfDay time) (ho : off.natAbs < 86400)
    (hmin : off % 60 = 0) : (instant d time off).isValid := by
  have hdays := toDays_range hd h₀ h
  have hsec := ht.second
  rw [Instant.isValid_iff, Instant.firstSecond_eq, Instant.lastSecond_eq]
  simp only [instant, Instant.perDay]
  refine ⟨by omega, by omega, ht.nanos, ?_⟩
  intro hleap
  have hlast := ht.leap (of_decide_eq_true hleap)
  omega

theorem isValid_of_ofRfc3339? {s : String} {t : Instant} (h : ofRfc3339? s = some t) :
    t.isValid := by
  simp only [ofRfc3339?, ofRfc3339Chars?, Option.bind_eq_bind, Option.bind_eq_some_iff, Prod.exists,
    Option.ite_none_right_eq_some, Option.some.injEq] at h
  obtain ⟨d, _, hd, _, -, time, nanos, _, ht, off, _, ho, -, rfl⟩ := h
  obtain ⟨hv, h₀, h⟩ := date?_range hd
  obtain ⟨hday, hmin⟩ := offset?_range ho
  exact isValid_instant hv h₀ h (clock?_range ht) hday hmin

end Time
end ClusterFleet
