import ClusterFleet.Freshness
import ClusterFleet.Health.Probe
import ClusterFleet.Proofs.Time.Order
import ClusterFleet.Proofs.Time.Rfc3339
import ClusterFleet.Proofs.Time.Words
import Mathlib.Logic.Relation

namespace ClusterFleet

variable {cs cs' : List Condition} {now m : Instant} {interval left : Span}

namespace Condition

structure IsLatest (cs : List Condition) (m : Instant) : Prop where
  stamped : ∃ c ∈ cs, c.updatedAt? = some m
  latest : ∀ c ∈ cs, ∀ t, c.updatedAt? = some t → t.le m

theorem latestUpdate?_eq_some_iff : latestUpdate? cs = some m ↔ IsLatest cs m := by
  rw [latestUpdate?, Instant.latest_eq_some_iff]
  constructor
  · rintro ⟨hm, hle⟩
    exact ⟨List.mem_filterMap.1 hm, fun c hc t ht => hle t (List.mem_filterMap.2 ⟨c, hc, ht⟩)⟩
  · rintro ⟨hm, hle⟩
    refine ⟨List.mem_filterMap.2 hm, ?_⟩
    intro t ht
    obtain ⟨c, hc, hct⟩ := List.mem_filterMap.1 ht
    exact hle c hc t hct

theorem isValid_of_updatedAt? {c : Condition} {t : Instant} (h : c.updatedAt? = some t) :
    t.isValid := by
  obtain ⟨s, _, hs⟩ := Option.bind_eq_some_iff.1 h
  exact Time.isValid_of_ofRfc3339? hs

theorem IsLatest.isValid (h : IsLatest cs m) : m.isValid := by
  obtain ⟨c, _, hc⟩ := h.stamped
  exact isValid_of_updatedAt? hc

/-- A change of conditions that the latest stamp does not show. -/
inductive Altered : List Condition → List Condition → Prop
  | moved {cs cs' : List Condition} (h : cs.Perm cs') : Altered cs cs'
  /-- A stamp is written anew, and read as it was before. -/
  | rewritten {as bs : List Condition} {c c' : Condition} (h : c'.updatedAt? = c.updatedAt?) :
    Altered (as ++ c :: bs) (as ++ c' :: bs)
  /-- A stamp is written as the same instant in another zone. -/
  | rezoned {as bs : List Condition} {c : Condition} {t : Instant} {minutes : Int}
    (ht : c.updatedAt? = some t) (hm : minutes.natAbs < 1440)
    (h₀ : 0 ≤ (Time.Date.ofDays (t.addSeconds (60 * minutes)).day).year)
    (hy : (Time.Date.ofDays (t.addSeconds (60 * minutes)).day).year ≤ 9999) :
    Altered (as ++ c :: bs) (as ++ { c with updated := some (Time.textAt minutes t) } :: bs)
  /-- A condition is added whose stamp cannot be read, or is no later than another. -/
  | added {as bs : List Condition} {c : Condition}
    (h : ∀ t, c.updatedAt? = some t → ∃ b ∈ as ++ bs, ∃ u, b.updatedAt? = some u ∧ t.le u) :
    Altered (as ++ bs) (as ++ c :: bs)

theorem latestUpdate?_eq_of_subset (hsub : cs ⊆ cs') (hle : ∀ c ∈ cs', ∀ t,
    c.updatedAt? = some t → ∃ b ∈ cs, ∃ u, b.updatedAt? = some u ∧ t.le u) :
    latestUpdate? cs' = latestUpdate? cs := by
  refine Option.ext fun m => ?_
  rw [latestUpdate?_eq_some_iff, latestUpdate?_eq_some_iff]
  constructor
  · rintro ⟨⟨c, hc, hm⟩, hmax⟩
    obtain ⟨b, hb, u, hu, hmu⟩ := hle c hc m hm
    obtain rfl := Instant.le_antisymm hmu (hmax b (hsub hb) u hu)
    exact ⟨⟨b, hb, hu⟩, fun c hc => hmax c (hsub hc)⟩
  · rintro ⟨⟨c, hc, hm⟩, hmax⟩
    refine ⟨⟨c, hsub hc, hm⟩, ?_⟩
    intro c' hc' t ht
    obtain ⟨b, hb, u, hu, htu⟩ := hle c' hc' t ht
    exact Instant.le_trans htu (hmax b hb u hu)

theorem latestUpdate?_rewritten {as bs : List Condition} {c c' : Condition}
    (h : c'.updatedAt? = c.updatedAt?) :
    latestUpdate? (as ++ c' :: bs) = latestUpdate? (as ++ c :: bs) := by
  simp only [latestUpdate?, List.filterMap_append, List.filterMap_cons, h]

theorem updatedAt?_rezoned {c : Condition} {t : Instant} {minutes : Int}
    (ht : c.updatedAt? = some t) (hm : minutes.natAbs < 1440)
    (h₀ : 0 ≤ (Time.Date.ofDays (t.addSeconds (60 * minutes)).day).year)
    (hy : (Time.Date.ofDays (t.addSeconds (60 * minutes)).day).year ≤ 9999) :
    { c with updated := some (Time.textAt minutes t) }.updatedAt? = c.updatedAt? := by
  obtain ⟨-, -, hn, hl⟩ := Instant.isValid_iff.1 (isValid_of_updatedAt? ht)
  have hread := Time.ofRfc3339?_textAt hm hn hl h₀ hy
  simp only [updatedAt?, Option.bind_some, hread]
  exact ht.symm

theorem latestUpdate?_altered (h : Altered cs cs') : latestUpdate? cs' = latestUpdate? cs := by
  cases h with
  | moved h =>
    refine latestUpdate?_eq_of_subset h.subset ?_
    exact fun c hc t ht => ⟨c, h.mem_iff.2 hc, t, ht, Instant.le_refl t⟩
  | rewritten h => exact latestUpdate?_rewritten h
  | rezoned ht hm h₀ hy => exact latestUpdate?_rewritten (updatedAt?_rezoned ht hm h₀ hy)
  | @added as bs c h =>
    refine latestUpdate?_eq_of_subset ((List.sublist_cons_self c bs).append_left as).subset ?_
    intro b hb t ht
    rcases List.mem_append.1 hb with hb | hb
    · exact ⟨b, List.mem_append_left _ hb, t, ht, Instant.le_refl t⟩
    · rcases List.mem_cons.1 hb with rfl | hb
      · exact h t ht
      · exact ⟨b, List.mem_append_right _ hb, t, ht, Instant.le_refl t⟩

theorem latestUpdate?_eqvGen (h : Relation.EqvGen Altered cs cs') :
    latestUpdate? cs' = latestUpdate? cs := by
  induction h with
  | rel _ _ h => exact latestUpdate?_altered h
  | refl _ => rfl
  | symm _ _ _ ih => exact ih.symm
  | trans _ _ _ _ _ ih ih' => exact ih'.trans ih

end Condition

open Condition

theorem remaining?_congr (h : latestUpdate? cs' = latestUpdate? cs) :
    remaining? cs' now interval = remaining? cs now interval := by
  rw [remaining?, remaining?, h]

theorem leftAfter_iff : (do
    let elapsed ← now.elapsed? m
    (interval.sub? elapsed).filter (!·.isZero)) = some left ↔
    0 ≤ now.since m ∧ now.since m < interval.nanos ∧
      (left.nanos : Int) = interval.nanos - now.since m := by
  obtain ⟨k⟩ := left
  simp only [Option.bind_eq_bind, Option.bind_eq_some_iff, Option.filter_eq_some_iff,
    Instant.elapsed?, Span.sub?, Option.ite_none_right_eq_some, Option.some.injEq, Span.isZero,
    Span.mk.injEq, Bool.not_eq_true', decide_eq_false_iff_not]
  generalize now.since m = n
  constructor
  · rintro ⟨_, ⟨h₀, rfl⟩, ⟨hle, rfl⟩, hne⟩
    simp only at hle hne ⊢
    omega
  · rintro ⟨h₀, hlt, hk⟩
    exact ⟨⟨n.toNat⟩, ⟨h₀, rfl⟩, ⟨by simp only; omega, by simp only; omega⟩, by omega⟩

theorem remaining?_eq_some_iff : remaining? cs now interval = some left ↔
    ∃ m, IsLatest cs m ∧ 0 ≤ now.since m ∧ now.since m < interval.nanos ∧
      (left.nanos : Int) = interval.nanos - now.since m := by
  simp only [← latestUpdate?_eq_some_iff, ← leftAfter_iff]
  exact Option.bind_eq_some_iff

theorem remaining?_range (h : remaining? cs now interval = some left) :
    0 < left.nanos ∧ left.nanos ≤ interval.nanos := by
  obtain ⟨m, _, h₀, hlt, hleft⟩ := remaining?_eq_some_iff.1 h
  omega

/-- The time left, reckoned in machine words; none if a step leaves its range. -/
def remainingInWords? (cs : List Condition) (now : Instant) (interval : Span) :
    Option (Option Span) :=
  match latestUpdate? cs with
  | none => some none
  | some m => (Delta.between? now m).map fun d => do
    let elapsed ← d.span?
    (interval.borrow? elapsed).filter (!·.isZero)

theorem remainingInWords?_eq (h : now.isValid) :
    remainingInWords? cs now interval = some (remaining? cs now interval) := by
  unfold remainingInWords? remaining?
  cases hm : latestUpdate? cs with
  | none => rfl
  | some m =>
    have hv := (latestUpdate?_eq_some_iff.1 hm).isValid
    obtain ⟨d, hd, helapsed⟩ := Option.map_eq_some_iff.1 (Delta.between?_elapsed? h hv)
    simp only [hd, Option.map_some, helapsed, Span.borrow?_eq_sub?]
    rfl

/-- The time left is what the latest stamp leaves of the interval, to the nanosecond. -/
structure Exact (cs : List Condition) (now : Instant) (interval : Span) : Prop where
  some_iff : ∀ left, remaining? cs now interval = some left ↔
    ∃ m, IsLatest cs m ∧ 0 ≤ now.since m ∧ now.since m < interval.nanos ∧
      (left.nanos : Int) = interval.nanos - now.since m
  range : ∀ left, remaining? cs now interval = some left →
    0 < left.nanos ∧ left.nanos ≤ interval.nanos
  unaltered : ∀ cs', Relation.EqvGen Altered cs cs' →
    remaining? cs' now interval = remaining? cs now interval
  in_words : remainingInWords? cs now interval = some (remaining? cs now interval)

theorem exact_of_isValid (cs : List Condition) (interval : Span) (h : now.isValid) :
    Exact cs now interval where
  some_iff := fun _ => remaining?_eq_some_iff
  range := fun _ => remaining?_range
  unaltered := fun _ hcs => remaining?_congr (latestUpdate?_eqvGen hcs)
  in_words := remainingInWords?_eq h

/-- Six seconds of ten are left four seconds after the latest of two stamps, which is written in
another zone than the clock reads. -/
def twice : List Condition :=
  [{ Health.ready with updated := some "2023-11-15T00:13:16+02:00" },
   { Health.reachable with updated := some "2023-11-14T22:13:10Z" }]

theorem exact_twice : (⟨1700000000, 0⟩ : Instant).isValid ∧
    Exact twice ⟨1700000000, 0⟩ (.ofSeconds 10) ∧
    remaining? twice ⟨1700000000, 0⟩ (.ofSeconds 10) = some (.ofSeconds 6) := by
  have hv : (⟨1700000000, 0⟩ : Instant).isValid := by decide
  refine ⟨hv, exact_of_isValid twice (.ofSeconds 10) hv, by decide +kernel⟩

end ClusterFleet
