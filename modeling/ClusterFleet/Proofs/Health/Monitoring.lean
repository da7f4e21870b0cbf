import ClusterFleet.Health.Pass
import ClusterFleet.Proofs.Freshness
import ClusterFleet.Proofs.Health.Record
import ClusterFleet.Proofs.Trail
import ClusterFleet.Settings

namespace ClusterFleet

namespace Text.Decimal

theorem natBelow?_lt {bound n : Nat} {cs : List Char} (h : natBelow? bound cs = some n) :
    n < bound := by
  unfold natBelow? at h
  simp only [Option.ite_none_left_eq_some, Option.ite_none_right_eq_some, Option.some.injEq] at h
  exact h.2.2 ▸ h.2.1

theorem word64?_lt {t : String} {n : Nat} (h : word64? t = some n) : n < 2 ^ 64 := by
  unfold word64? at h
  split at h <;> exact natBelow?_lt h

end Text.Decimal

namespace Settings

variable {env : Environment} {s : Settings}

theorem seconds_lt {name : String} {default n : Nat} (hd : default < 2 ^ 64)
    (h : seconds env name default = .ok n) : n < 2 ^ 64 := by
  unfold seconds at h
  split at h
  · cases h
    exact hd
  · split at h
    · next hw =>
      cases h
      exact Text.Decimal.word64?_lt hw
    · cases h

theorem exists_of_bind_eq_ok {ε α β : Type} {x : Except ε α} {f : α → Except ε β} {b : β}
    (h : x >>= f = .ok b) : ∃ a, x = .ok a ∧ f a = .ok b := by
  cases x with
  | error e => cases h
  | ok a => exact ⟨a, rfl, h⟩

/-- A second at least, and no more seconds than a word of 64 bits can tell. -/
theorem healthCheckInterval_range (h : read env = .ok s) :
    Span.perSecond ≤ s.healthCheckInterval.nanos ∧ s.healthCheckInterval.seconds < 2 ^ 64 := by
  have hn : s.healthCheckSeconds < 2 ^ 64 := by
    obtain ⟨n, hn, h⟩ := exists_of_bind_eq_ok h
    obtain ⟨_, _, h⟩ := exists_of_bind_eq_ok h
    obtain ⟨_, _, h⟩ := exists_of_bind_eq_ok h
    obtain ⟨_, _, h⟩ := exists_of_bind_eq_ok h
    cases h
    exact seconds_lt (by decide) hn
  have hpos : 0 < Span.perSecond := by decide
  unfold healthCheckInterval Span.ofSeconds
  refine ⟨?_, ?_⟩
  · exact Nat.le_mul_of_pos_left _ (by omega)
  · rw [Span.seconds, Nat.mul_div_cancel _ hpos]
    omega

end Settings

/-- A program that comes to a result, whatever the replies. -/
inductive Program.Ends {α : Type} : Program α → Prop
  | done (v : α) : Ends (.done v)
  | call {a : Action} {next : a.Reply → Program α} (h : ∀ r, Ends (next r)) : Ends (.call a next)

theorem Program.Ends.bind {α β : Type} {p : Program α} {k : α → Program β} (hp : p.Ends)
    (hk : ∀ v, (k v).Ends) : (p >>= k).Ends := by
  induction hp with
  | done v => exact hk v
  | call _ ih => exact .call ih

theorem Program.Ends.exists_runBy {α σ : Type} {p : Program α} (hp : p.Ends) (h : Handler σ)
    (w : σ) : ∃ v, (p.runBy h w).1 = some v := by
  induction hp generalizing w with
  | done v => exact ⟨v, rfl⟩
  | call _ ih => exact ih _ _

namespace Health
open Program

variable {name : String} {interval : Span} {ds : List ClusterFleet.Deed}
  {r : Except PassError PassOutcome}

theorem ends_persist (name : String) (cs : List Condition) (then_ : Except PassError PassOutcome) :
    (persist name cs then_).Ends := .call fun w => by cases w <;> exact .done _

theorem ends_pass (interval : Span) (name : String) : (pass interval name).Ends := by
  refine .call fun found => ?_
  rcases found with e | d | d
  · exact .done _
  · exact .done _
  · refine .call fun c => ?_
    cases c with
    | none => exact .call fun _ => ends_persist _ _ _
    | some c => exact .call fun _ => .call fun _ => ends_persist _ _ _

theorem ends_reconcile (interval : Span) (d : Descriptor) : (reconcile interval d).Ends := by
  refine .call fun now => ?_
  simp only [Program.bind]
  split
  · exact .done _
  · exact .bind (ends_pass interval d.name) fun _ => .done _

/-- What a pass does and comes to once it has found the descriptor. -/
structure GoesOn (interval : Span) (ds : List ClusterFleet.Deed)
    (r : Except PassError PassOutcome) : Prop where
  seeks_none : ∀ x ∈ ds, ∀ n, x.action ≠ .findCluster n
  again : r = .ok (.requeueAfter interval) ∨ ∃ e, r = .error e

theorem GoesOn.nil (h : r = .ok (.requeueAfter interval) ∨ ∃ e, r = .error e) :
    GoesOn interval [] r :=
  ⟨fun _ hx => absurd hx List.not_mem_nil, h⟩

theorem GoesOn.cons {x : ClusterFleet.Deed} (hx : ∀ n, x.action ≠ .findCluster n)
    (h : GoesOn interval ds r) : GoesOn interval (x :: ds) r :=
  ⟨List.forall_mem_cons.2 ⟨hx, h.seeks_none⟩, h.again⟩

theorem goesOn_persist {cs : List Condition} {then_ : Except PassError PassOutcome}
    (hthen : then_ = .ok (.requeueAfter interval) ∨ ∃ e, then_ = .error e)
    (h : (persist name cs then_).Trail ds (.done r)) : GoesOn interval ds r := by
  obtain ⟨w, es, rfl, hrest⟩ := Trail.of_call h
  refine .cons (by simp) ?_
  cases w with
  | error e =>
    obtain ⟨rfl, hr⟩ := hrest.of_done
    cases hr
    exact .nil (.inr ⟨_, rfl⟩)
  | ok _ =>
    obtain ⟨rfl, hr⟩ := hrest.of_done
    cases hr
    exact .nil hthen

theorem goesOn_recordMiss {d : Descriptor} (h : (recordMiss name d).Trail ds (.done r)) :
    GoesOn interval ds r := by
  obtain ⟨t, es, rfl, hrest⟩ := Trail.of_call h
  exact .cons (by simp) (goesOn_persist (.inr ⟨_, rfl⟩) hrest)

theorem goesOn_recordProbe {d : Descriptor} {c : Connection}
    (h : (recordProbe name d c interval).Trail ds (.done r)) : GoesOn interval ds r := by
  obtain ⟨answer, es, rfl, hrest⟩ := Trail.of_call h
  obtain ⟨t, fs, rfl, hpersist⟩ := Trail.of_call hrest
  exact .cons (by simp) (.cons (by simp) (goesOn_persist (.inl rfl) hpersist))

/-- A pass seeks the descriptor once, and is over for good just when there is none. -/
theorem trail_pass (h : (pass interval name).Trail ds (.done r)) : ∃ found es,
    ds = ⟨.findCluster name, found⟩ :: es ∧
      (found = .ok none ∧ es = [] ∧ r = .ok .finished ∨
        found ≠ .ok none ∧ GoesOn interval es r) := by
  obtain ⟨found, es, rfl, hrest⟩ := Trail.of_call h
  refine ⟨found, es, rfl, ?_⟩
  rcases found with e | d | d
  · obtain ⟨rfl, hr⟩ := hrest.of_done
    cases hr
    exact .inr ⟨nofun, .nil (.inr ⟨_, rfl⟩)⟩
  · obtain ⟨rfl, hr⟩ := hrest.of_done
    cases hr
    exact .inl ⟨rfl, rfl, rfl⟩
  · obtain ⟨c, fs, rfl, hrecord⟩ := Trail.of_call hrest
    refine .inr ⟨nofun, .cons (by simp) ?_⟩
    cases c with
    | none => exact goesOn_recordMiss hrecord
    | some c => exact goesOn_recordProbe hrecord

/-- The plan goes by the answer to that, and no later deed can be taken for it. -/
theorem planAfter_of_pass (h : (pass interval name).Trail ds (.done r)) : ∃ found es,
    ds = ⟨.findCluster name, found⟩ :: es ∧
      (⟨.findCluster name, .ok none⟩ ∈ ds ↔ found = .ok none) ∧
        (found = .ok none ∧ planAfter interval r = .awaitChange ∨
          found ≠ .ok none ∧ planAfter interval r = .requeue interval) := by
  obtain ⟨found, es, rfl, ⟨rfl, rfl, rfl⟩ | ⟨hfound, hes⟩⟩ := trail_pass h
  · exact ⟨_, _, rfl, by simp, .inl ⟨rfl, rfl⟩⟩
  · refine ⟨found, es, rfl, iff_of_false ?_ hfound, .inr ⟨hfound, ?_⟩⟩
    · intro hmem
      rcases List.mem_cons.1 hmem with heq | hmem
      · cases heq
        exact hfound rfl
      · exact hes.seeks_none _ hmem name rfl
    · rcases hes.again with rfl | ⟨e, rfl⟩ <;> rfl

theorem trail_reconcile {d : Descriptor} {plan : Plan} {e : Option PassError}
    (h : (reconcile interval d).Trail ds (.done (plan, e))) : ∃ t es, ds = ⟨.now, t⟩ :: es ∧
      match remaining? d.conditions t interval with
      | some left => es = [] ∧ plan = .requeue left ∧ e = none
      | none => ∃ r, (pass interval d.name).Trail es (.done r) ∧ plan = planAfter interval r ∧
          (e.isSome → plan = .requeue interval) := by
  obtain ⟨t, es, rfl, hrest⟩ := Trail.of_call h
  refine ⟨t, es, rfl, ?_⟩
  simp only [Program.bind] at hrest
  cases hl : remaining? d.conditions t interval with
  | some left =>
    simp only [hl] at hrest
    obtain ⟨rfl, hr⟩ := hrest.of_done
    cases hr
    exact ⟨rfl, rfl, rfl⟩
  | none =>
    simp only [hl] at hrest
    obtain ⟨r, es, fs, rfl, hpass, hend⟩ := Trail.of_bind hrest
    obtain ⟨rfl, hr⟩ := hend.of_done
    cases hr
    rw [List.append_nil]
    refine ⟨r, hpass, rfl, ?_⟩
    cases r <;> simp [planAfter]

/-- A check at `now`, its deeds, and what comes of it. -/
structure Monitored (interval : Span) (d : Descriptor) (now : Instant)
    (ds : List ClusterFleet.Deed) (plan : Plan) (e : Option PassError) : Prop where
  interval_ge : (Span.ofSeconds 1).nanos ≤ interval.nanos
  interval_lt : interval.seconds < 2 ^ 64
  awaits_iff : plan = .awaitChange ↔
    remaining? d.conditions now interval = none ∧ ⟨.findCluster d.name, .ok none⟩ ∈ ds
  returns : plan ≠ .awaitChange →
    ∃ after, plan = .requeue after ∧ 0 < after.nanos ∧ after.nanos ≤ interval.nanos
  waits : ∀ left, remaining? d.conditions now interval = some left →
    plan = .requeue left ∧ e = none ∧ ds = [⟨.now, now⟩]
  asks : remaining? d.conditions now interval = none → ∃ found es,
    ds = ⟨.now, now⟩ :: ⟨.findCluster d.name, found⟩ :: es ∧
      (plan = .awaitChange ↔ found = .ok none)
  paced : remaining? d.conditions now interval = none →
    plan = .awaitChange ∨ plan = .requeue interval
  failed : e.isSome → plan = .requeue interval

theorem monitored_of_trail {d : Descriptor} {now : Instant} {plan : Plan} {e : Option PassError}
    (hge : (Span.ofSeconds 1).nanos ≤ interval.nanos) (hlt : interval.seconds < 2 ^ 64)
    (h : (reconcile interval d).Trail (⟨.now, now⟩ :: ds) (.done (plan, e))) :
    Monitored interval d now (⟨.now, now⟩ :: ds) plan e := by
  obtain ⟨t, es, hcons, hcase⟩ := trail_reconcile h
  cases hcons
  have hpos : 0 < interval.nanos := Nat.lt_of_lt_of_le (by decide) hge
  cases hl : remaining? d.conditions now interval with
  | some left =>
    rw [hl] at hcase
    obtain ⟨rfl, rfl, rfl⟩ := hcase
    have hrange := remaining?_range hl
    refine ⟨hge, hlt, ?_, ?_, ?_, ?_, ?_, ?_⟩
    · simp [hl]
    · exact fun _ => ⟨left, rfl, hrange⟩
    · intro left' hl'
      cases hl.symm.trans hl'
      exact ⟨rfl, rfl, rfl⟩
    · simp [hl]
    · simp [hl]
    · simp
  | none =>
    rw [hl] at hcase
    obtain ⟨r, hpass, rfl, hfail⟩ := hcase
    have hnone : ∀ left, remaining? d.conditions now interval ≠ some left := by simp [hl]
    -- The plan goes by the first answer of the pass, whether the name is stored.
    obtain ⟨found, fs, rfl, hmem, ⟨hfound, hplan⟩ | ⟨hfound, hplan⟩⟩ := planAfter_of_pass hpass
    · rw [hplan] at hfail ⊢
      have hasked : ⟨.findCluster d.name, .ok none⟩ ∈
          ClusterFleet.Deed.mk .now now :: ⟨.findCluster d.name, found⟩ :: fs :=
        List.mem_cons_of_mem _ (hmem.2 hfound)
      exact ⟨hge, hlt, iff_of_true rfl ⟨hl, hasked⟩, fun h => absurd rfl h,
        fun left h => absurd h (hnone left), fun _ => ⟨found, fs, rfl, iff_of_true rfl hfound⟩,
        fun _ => .inl rfl, hfail⟩
    · rw [hplan] at hfail ⊢
      have hne : Plan.requeue interval ≠ .awaitChange := nofun
      have hunasked : ⟨.findCluster d.name, .ok none⟩ ∉
          ClusterFleet.Deed.mk .now now :: ⟨.findCluster d.name, found⟩ :: fs := by
        rw [List.mem_cons, hmem]
        simp [hfound]
      exact ⟨hge, hlt, iff_of_false hne fun h => hunasked h.2,
        fun _ => ⟨interval, rfl, hpos, Nat.le_refl _⟩, fun left h => absurd h (hnone left),
        fun _ => ⟨found, fs, rfl, iff_of_false hne hfound⟩, fun _ => .inr rfl, hfail⟩

theorem monitored_of_settings {env : Settings.Environment} {s : Settings}
    (hs : Settings.read env = .ok s) (d : Descriptor) {σ : Type} (h : Handler σ) (w : σ) :
    ∃ plan e, ((reconcile s.healthCheckInterval d).runBy h w).1 = some (plan, e) ∧
      Monitored s.healthCheckInterval d (h w .now).1
        ((reconcile s.healthCheckInterval d).transcript h w) plan e := by
  obtain ⟨hge, hlt⟩ := Settings.healthCheckInterval_range hs
  obtain ⟨⟨plan, e⟩, hv⟩ := (ends_reconcile s.healthCheckInterval d).exists_runBy h w
  exact ⟨plan, e, hv, monitored_of_trail hge hlt (trail_transcript hv)⟩

def missing : Encounter := ⟨none, none, .failed, ⟨100, 0⟩, none⟩

/-- An interval of no seconds is one of a second, also after a miss. -/
theorem monitored_missing : ∃ s,
    Settings.read [("TOOLCHAIN_HEALTH_CHECK_INTERVAL_SECS", "0")] = .ok s ∧
    ((reconcile s.healthCheckInterval certified).runBy (missing.handler "east") certified).1 =
      some (.requeue (.ofSeconds 1), some (.cacheMiss "east")) ∧
    Monitored s.healthCheckInterval certified ⟨100, 0⟩
      ((reconcile s.healthCheckInterval certified).transcript (missing.handler "east") certified)
      (.requeue (.ofSeconds 1)) (some (.cacheMiss "east")) := by
  obtain ⟨s, hs, hi⟩ : ∃ s, Settings.read [("TOOLCHAIN_HEALTH_CHECK_INTERVAL_SECS", "0")] = .ok s ∧
      s.healthCheckInterval = .ofSeconds 1 := ⟨_, rfl, rfl⟩
  have hrun : ((reconcile s.healthCheckInterval certified).runBy (missing.handler "east")
      certified).1 = some (.requeue (.ofSeconds 1), some (.cacheMiss "east")) := by
    rw [hi]
    rfl
  obtain ⟨plan, e, hrun', hmon⟩ :=
    monitored_of_settings hs certified (missing.handler "east") certified
  cases hrun.symm.trans hrun'
  exact ⟨s, hs, hrun, hmon⟩

end Health
end ClusterFleet
