import ClusterFleet.Proofs.Health.Cadence
import ClusterFleet.Proofs.Health.Monitoring

namespace ClusterFleet

namespace Condition

variable {cs : List Condition} {m : Instant}

def isOwn (c : Condition) : Bool := c.aspect = .ready || c.aspect = .offline

def own (cs : List Condition) : List Condition := cs.filter isOwn

def foreign (cs : List Condition) : List Condition := cs.filter (!·.isOwn)

/-- Of all stamps the latest are foreign ones. -/
def Steered (cs : List Condition) : Prop :=
  ∃ m, IsLatest (foreign cs) m ∧ ∀ c ∈ own cs, ∀ t, c.updatedAt? = some t → ¬m.le t

theorem mem_own_or_foreign {c : Condition} (h : c ∈ cs) : c ∈ own cs ∨ c ∈ foreign cs := by
  simp only [own, foreign, List.mem_filter]
  cases c.isOwn <;> simp [h]

theorem exists_isLatest {c : Condition} {t : Instant} (hc : c ∈ cs) (ht : c.updatedAt? = some t) :
    ∃ m, IsLatest cs m := by
  cases h : latestUpdate? cs with
  | some m => exact ⟨m, latestUpdate?_eq_some_iff.1 h⟩
  | none =>
    have hnil := Instant.latest_eq_none_iff.1 h
    exact absurd (List.mem_filterMap.2 ⟨c, hc, ht⟩) (hnil ▸ List.not_mem_nil)

theorem latestUpdate?_own (h : ¬Steered cs) : latestUpdate? cs = latestUpdate? (own cs) := by
  refine latestUpdate?_eq_of_subset List.filter_sublist.subset ?_
  intro c hc t ht
  rcases mem_own_or_foreign hc with hown | hforeign
  · exact ⟨c, hown, t, ht, Instant.le_refl t⟩
  · obtain ⟨m, hm⟩ := exists_isLatest hforeign ht
    have htm := hm.latest c hforeign t ht
    simp only [Steered, not_exists, not_and, not_forall, not_not] at h
    obtain ⟨b, hb, u, hu, hmu⟩ := h m hm
    exact ⟨b, hb, u, hu, Instant.le_trans htm hmu⟩

theorem latestUpdate?_foreign (h : Steered cs) : latestUpdate? cs = latestUpdate? (foreign cs) := by
  obtain ⟨m, hm, hlater⟩ := h
  refine latestUpdate?_eq_of_subset List.filter_sublist.subset ?_
  intro c hc t ht
  obtain ⟨f, hf, hfm⟩ := hm.stamped
  refine ⟨f, hf, m, hfm, ?_⟩
  rcases mem_own_or_foreign hc with hown | hforeign
  · exact Instant.le_of_not_le (hlater c hown t ht)
  · exact hm.latest c hforeign t ht

end Condition

namespace Health
open Condition Program

variable {name : String} {interval : Span} {s s' start : Standing} {cs : List Check}

/-- A stamp ahead of the clock leaves no time. -/
theorem remaining?_of_ahead {conds : List Condition} {c : Condition} {t r : Instant}
    (hc : c ∈ conds) (ht : c.updatedAt? = some t) (hr : r.isLeap = false) (hlt : ¬t.le r) :
    remaining? conds r interval = none := by
  rw [Option.eq_none_iff_forall_ne_some]
  intro left hleft
  obtain ⟨m, hm, h₀, -⟩ := remaining?_eq_some_iff.1 hleft
  have htm := hm.latest c hc t ht
  have hmr : ¬m.le r := fun h => hlt (Instant.le_trans htm h)
  have hneg := Instant.since_neg hr (Instant.isValid_iff.1 hm.isValid).2.2.2 hmr
  omega

theorem isOwn_of_finding (f : Finding) : ∀ c ∈ f.conditions, c.isOwn := by
  cases f <;> decide

theorem mem_of_mem_recorded {f : Finding} {w : Instant} {conds : List Condition} {c : Condition}
    (h : c ∈ f.recorded w conds) (hc : ¬c.isOwn) : c ∈ conds := by
  rcases mem_recorded h with ⟨-, new, hnew, ha⟩ | h
  · refine absurd ?_ hc
    have hown := isOwn_of_finding f new hnew
    unfold isOwn at hown ⊢
    rw [ha]
    exact hown
  · exact h

theorem Leaves.mem_foreign {ms : List Mark} {c : Condition} (h : Leaves s ms s')
    (hc : c ∈ s'.conditions) (hf : ¬c.isOwn) : c ∈ s.conditions := by
  obtain ⟨-, ⟨-, hs⟩ | ⟨-, -, f, hs⟩⟩ := h
  · exact hs ▸ hc
  · exact mem_of_mem_recorded (hs ▸ hc) hf

theorem Course.asks_of_pass {ms : List Mark} {u : Option (Except PassError PassOutcome)}
    (h : Course name (pass interval name) s ms u s') :
    u = none ∨ .asked (.findCluster name) ∈ ms := by
  rcases h.of_call with ⟨r, m, s₁, rest, hr, -, rfl⟩ | ⟨-, hu, -⟩
  · rw [hr.of_find.1]
    exact .inr List.mem_cons_self
  · exact .inl hu

/-- The check was given up, or has made a pass. -/
def Check.Passed (name : String) (k : Check) : Prop :=
  k.result = none ∨ .asked (.findCluster name) ∈ k.marks

theorem passed_of_checks {c : Condition} {t : Instant} (h : Checks interval name start cs s)
    (hc : c ∈ s.conditions) (hf : ¬c.isOwn) (ht : c.updatedAt? = some t)
    (hahead : ∀ k ∈ cs, ∀ r, .read r ∈ k.marks → ¬t.le r) : ∀ k ∈ cs, k.Passed name := by
  induction h with
  | here => exact nofun
  | @goes s s' cs d ms v hprev hname hd hcourse ih =>
    rw [List.forall_mem_cons] at hahead ⊢
    obtain ⟨r, rest, hr, -, rfl, hcase⟩ := hcourse.of_reconcile hname hd
    have hlt := hahead.1 r List.mem_cons_self
    cases hl : remaining? s.conditions r interval with
    | some left =>
      rw [hl] at hcase
      obtain ⟨-, -, rfl⟩ := hcase
      rw [remaining?_of_ahead hc ht hr.leap hlt] at hl
      cases hl
    | none =>
      rw [hl] at hcase
      obtain ⟨u, hpass, hu⟩ := hcase
      refine ⟨?_, ih ((leaves_pass hpass).mem_foreign hc hf) hahead.2⟩
      exact hpass.asks_of_pass.imp hu (List.mem_cons_of_mem _)

theorem reconcile_congr {d d' : Descriptor} (hname : d'.name = d.name)
    (h : latestUpdate? d'.conditions = latestUpdate? d.conditions) :
    reconcile interval d' = reconcile interval d := by
  unfold reconcile
  simp only [remaining?_congr h, hname]

theorem waits_of_left {d : Descriptor} {left : Span} {σ : Type} (h : Handler σ) (w : σ)
    (hl : remaining? d.conditions (h w .now).1 interval = some left) :
    ((reconcile interval d).runBy h w).1 = some (.requeue left, none) ∧
      (reconcile interval d).transcript h w = [⟨.now, (h w .now).1⟩] := by
  simp [reconcile, hl]

/-- How the foreign conditions of a cluster tell on its checks. -/
structure Sway (interval : Span) (d : Descriptor) : Prop where
  spared : ¬Steered d.conditions →
    ∀ now, remaining? d.conditions now interval = remaining? (own d.conditions) now interval
  swayed : Steered d.conditions →
    ∀ now, remaining? d.conditions now interval = remaining? (foreign d.conditions) now interval
  /-- Two descriptors with the same conditions of their own are treated alike. -/
  alike : ∀ d', d'.name = d.name → own d'.conditions = own d.conditions →
    ¬Steered d.conditions → ¬Steered d'.conditions → reconcile interval d' = reconcile interval d
  delayed : ∀ m, Steered d.conditions → IsLatest (foreign d.conditions) m →
    ∀ (σ : Type) (h : Handler σ) (w : σ), 0 ≤ (h w .now).1.since m →
      (h w .now).1.since m < interval.nanos → ∃ left : Span,
        (left.nanos : Int) = interval.nanos - (h w .now).1.since m ∧
        ((reconcile interval d).runBy h w).1 = some (.requeue left, none) ∧
        (reconcile interval d).transcript h w = [⟨.now, (h w .now).1⟩]
  hurried : ∀ start cs s, Checks interval d.name start cs s → s.conditions = d.conditions →
    ∀ c ∈ foreign d.conditions, ∀ t, c.updatedAt? = some t →
      (∀ k ∈ cs, ∀ r, .read r ∈ k.marks → ¬t.le r) → ∀ k ∈ cs, k.Passed d.name

theorem sway_of_foreign (interval : Span) (d : Descriptor) : Sway interval d where
  spared := fun h _ => remaining?_congr (latestUpdate?_own h)
  swayed := fun h _ => remaining?_congr (latestUpdate?_foreign h)
  alike := by
    intro d' hname hown h h'
    refine reconcile_congr hname ?_
    rw [latestUpdate?_own h, latestUpdate?_own h', hown]
  delayed := by
    intro m h hm σ hd w h₀ hlt
    have hleft : remaining? d.conditions (hd w .now).1 interval =
        some ⟨(interval.nanos - (hd w .now).1.since m).toNat⟩ := by
      rw [remaining?_congr (latestUpdate?_foreign h)]
      exact remaining?_eq_some_iff.2 ⟨m, hm, h₀, hlt, Int.toNat_of_nonneg (by omega)⟩
    exact ⟨_, Int.toNat_of_nonneg (by omega), waits_of_left hd w hleft⟩
  hurried := by
    intro start cs s hrun hs c hc t ht
    obtain ⟨hmem, hf⟩ := List.mem_filter.1 hc
    exact passed_of_checks hrun (hs ▸ hmem) (by simpa using hf) ht

def calm : Descriptor := certified.withStatus
  ⟨[{ Health.ready with updated := some "2023-11-14T22:13:16Z" }]⟩

/-- With a quota that is half a minute ahead. -/
def pushed : Descriptor := certified.withStatus
  ⟨calm.conditions ++ [⟨.other "Quota", .yes, none, none, none, some "2023-11-14T22:13:50Z"⟩]⟩

theorem swayed_pushed : Steered pushed.conditions ∧ Sway (.ofSeconds 10) pushed ∧
    remaining? pushed.conditions ⟨1700000000, 0⟩ (.ofSeconds 10) =
      remaining? (foreign pushed.conditions) ⟨1700000000, 0⟩ (.ofSeconds 10) := by
  have hm : IsLatest (foreign pushed.conditions) ⟨1700000030, 0⟩ :=
    latestUpdate?_eq_some_iff.1 (by decide +kernel)
  have hown : IsLatest (own pushed.conditions) ⟨1699999996, 0⟩ :=
    latestUpdate?_eq_some_iff.1 (by decide +kernel)
  have hsteered : Steered pushed.conditions := by
    refine ⟨_, hm, ?_⟩
    intro c hc t ht hle
    exact absurd (Instant.le_trans hle (hown.latest c hc t ht)) (by decide)
  have hsway := sway_of_foreign (.ofSeconds 10) pushed
  exact ⟨hsteered, hsway, hsway.swayed hsteered _⟩

def stale : Descriptor := certified.withStatus
  ⟨[{ Health.ready with updated := some "2023-11-14T22:12:20Z" }]⟩

/-- With a quota of a second before. -/
def lulled : Descriptor := certified.withStatus
  ⟨stale.conditions ++ [⟨.other "Quota", .yes, none, none, none, some "2023-11-14T22:13:19Z"⟩]⟩

def evening : Encounter := ⟨none, none, .failed, ⟨1700000000, 0⟩, none⟩

def atEvening (d : Descriptor) : Option Plan × Bool :=
  (((reconcile (.ofSeconds 10) d).runBy (evening.handler "east") d).1.map Prod.fst,
    ((reconcile (.ofSeconds 10) d).transcript (evening.handler "east") d).any (·.action.isRequest))

/-- With the quota the one check is made six seconds early, and the other is put off when it is
due. -/
theorem not_alike_quota :
    (own pushed.conditions = own calm.conditions ∧ pushed.name = calm.name ∧
      atEvening calm = (some (.requeue (.ofSeconds 6)), false) ∧
      atEvening pushed = (some (.requeue (.ofSeconds 10)), true)) ∧
    own lulled.conditions = own stale.conditions ∧ lulled.name = stale.name ∧
      atEvening stale = (some (.requeue (.ofSeconds 10)), true) ∧
      atEvening lulled = (some (.requeue (.ofSeconds 9)), false) := by
  refine ⟨⟨?_, ?_, ?_, ?_⟩, ?_, ?_, ?_, ?_⟩ <;> decide +kernel

end Health
end ClusterFleet
