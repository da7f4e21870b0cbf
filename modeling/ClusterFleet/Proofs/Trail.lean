import ClusterFleet.Proofs.Crew

namespace ClusterFleet

structure Deed where
  action : Action
  reply : action.Reply

namespace Program

variable {ρ σ : Type}

/-- On these replies the program does these deeds, the first of them first, and comes to another. -/
inductive Trail : Program ρ → List Deed → Program ρ → Prop
  | here (p : Program ρ) : Trail p [] p
  | goes {a : Action} {next : a.Reply → Program ρ} {r : a.Reply} {ds : List Deed} {q : Program ρ}
    (h : Trail (next r) ds q) : Trail (.call a next) (⟨a, r⟩ :: ds) q

theorem Trail.concat {p : Program ρ} {ds : List Deed} {a : Action} {next : a.Reply → Program ρ}
    {q : Program ρ} (h : Trail p ds q) (hq : q = .call a next) (r : a.Reply) :
    Trail p (ds ++ [⟨a, r⟩]) (next r) := by
  induction h with
  | here p =>
    subst hq
    exact .goes (.here _)
  | goes _ ih => exact .goes (ih hq)

def result? : Program ρ → Option ρ
  | .done v => some v
  | _ => none

theorem result?_eq_some {p : Program ρ} {v : ρ} : p.result? = some v ↔ p = .done v := by
  cases p <;> simp [result?]

theorem Trail.of_done {u : ρ} {ds : List Deed} {q : Program ρ} (h : Trail (.done u) ds q) :
    ds = [] ∧ q = .done u := by
  cases h
  exact ⟨rfl, rfl⟩

theorem Trail.of_call {a : Action} {next : a.Reply → Program ρ} {ds : List Deed} {v : ρ}
    (h : Trail (.call a next) ds (.done v)) :
    ∃ r es, ds = ⟨a, r⟩ :: es ∧ Trail (next r) es (.done v) := by
  cases h with
  | goes h => exact ⟨_, _, rfl, h⟩

theorem Trail.of_bind {p : Program σ} {k : σ → Program ρ} {ds : List Deed} {v : ρ}
    (h : Trail (p >>= k) ds (.done v)) :
    ∃ u es fs, ds = es ++ fs ∧ Trail p es (.done u) ∧ Trail (k u) fs (.done v) := by
  induction p generalizing ds with
  | done u => exact ⟨u, [], ds, rfl, .here _, h⟩
  | crash => cases h
  | call a next ih =>
    obtain ⟨r, es, rfl, hr⟩ := Trail.of_call h
    obtain ⟨u, es, fs, rfl, hp, hk⟩ := ih r hr
    exact ⟨u, _, fs, rfl, .goes hp, hk⟩

variable {τ : Type}

def transcript (h : Handler τ) : Program ρ → τ → List Deed
  | .done _, _ => []
  | .crash, _ => []
  | .call a next, s => ⟨a, (h s a).1⟩ :: (next (h s a).1).transcript h (h s a).2

@[simp] theorem transcript_call (h : Handler τ) (a : Action) (next : a.Reply → Program ρ) (s : τ) :
    (Program.call a next).transcript h s =
      ⟨a, (h s a).1⟩ :: (next (h s a).1).transcript h (h s a).2 := rfl

@[simp] theorem transcript_pure (h : Handler τ) (v : ρ) (s : τ) :
    (pure v : Program ρ).transcript h s = [] := rfl

theorem trail_transcript {h : Handler τ} {p : Program ρ} {s : τ} {v : ρ}
    (hv : (p.runBy h s).1 = some v) : p.Trail (p.transcript h s) (.done v) := by
  induction p generalizing s with
  | done u =>
    cases hv
    exact .here _
  | crash => cases hv
  | call a next ih => exact .goes (ih _ hv)

theorem transcript_bind (h : Handler τ) (p : Program σ) (k : σ → Program ρ) (s : τ) :
    (p >>= k).transcript h s = p.transcript h s ++ match p.runBy h s with
      | (some v, s) => (k v).transcript h s
      | (none, _) => [] := by
  induction p generalizing s with
  | done v => rfl
  | crash => rfl
  | call a next ih => exact congrArg (_ :: ·) (ih _ _)

end Program

def Event.deed? {κ : Type} (i : Nat) : Event κ → Option Deed
  | .acted j a r => if j = i then some ⟨a, r⟩ else none
  | _ => none

/-- What the task has done, the first deed first. -/
def deeds {κ : Type} (i : Nat) (log : List (Event κ)) : List Deed :=
  (log.filterMap (Event.deed? i)).reverse

section
variable {κ ρ : Type} {i : Nat} {e : Event κ} {log : List (Event κ)}

theorem deeds_cons (i : Nat) (e : Event κ) (log : List (Event κ)) :
    deeds i (e :: log) = deeds i log ++ (e.deed? i).toList := by
  cases h : e.deed? i <;> simp [deeds, h]

theorem deed?_eq_none (h : i ≠ e.task) : e.deed? i = none := by
  cases e with
  | acted j a r => exact if_neg (Ne.symm h)
  | _ => rfl

theorem eq_of_deed? {d : Deed} (h : e.deed? i = some d) : e = .acted i d.action d.reply := by
  cases e with
  | acted j a r =>
    simp only [Event.deed?] at h
    split at h
    · next hj =>
      cases h
      rw [hj]
    · cases h
  | _ => cases h

theorem exists_of_deeds {before after : List Deed} {d : Deed}
    (h : deeds i log = before ++ d :: after) :
    ∃ later earlier, log = later ++ .acted i d.action d.reply :: earlier ∧
      deeds i earlier = before := by
  have h' : log.filterMap (Event.deed? i) = after.reverse ++ d :: before.reverse := by
    simpa [deeds] using congrArg List.reverse h
  obtain ⟨l₁, l₂, rfl, _, h₂⟩ := List.filterMap_eq_append_iff.1 h'
  obtain ⟨l₃, e, earlier, rfl, _, he, hb⟩ := List.filterMap_eq_cons_iff.1 h₂
  refine ⟨l₁ ++ l₃, earlier, ?_, ?_⟩
  · rw [eq_of_deed? he, List.append_assoc]
  · rw [deeds, hb, List.reverse_reverse]

variable {work : κ → Program ρ} {s : Crew κ ρ} {w : World}

theorem deeds_of_idle (h : Crew.Run work (.idle w) log s) (hi : s.tasks i = none) :
    deeds i log = [] := by
  rw [deeds, List.reverse_eq_nil_iff, List.filterMap_eq_nil_iff]
  intro e he
  apply deed?_eq_none
  rintro rfl
  obtain ⟨t, ht⟩ := h.exists_task he
  rw [hi] at ht
  cases ht

/-- The deeds of a task are those of its program, until it is dropped. -/
theorem trail_of_run (h : Crew.Run work (.idle w) log s) {t : Task κ ρ}
    (ht : s.tasks i = some t) :
    ∃ p, (work t.call).Trail (deeds i log) p ∧ (t.rest = p ∨ t.rest = .crash) := by
  induction h generalizing t with
  | here => cases ht
  | @step s s' e log h hs ih =>
    rw [deeds_cons]
    cases hs.moved ht with
    | begun k hn =>
      have hnone := deeds_of_idle h hn
      refine ⟨work k, ?_, .inl rfl⟩
      simpa [Event.deed?, hnone] using .here (work k)
    | @acted k a next r w hi hw =>
      obtain ⟨p, hp, hrest | hrest⟩ := ih hi
      · refine ⟨next r, ?_, .inl rfl⟩
        simpa [Event.deed?] using hp.concat hrest.symm r
      · -- What has been dropped does nothing more.
        cases hrest
    | waited hi => simpa [Event.deed?] using ih hi
    | dropped hi =>
      obtain ⟨q, hq, _⟩ := ih hi
      exact ⟨q, by simpa [Event.deed?] using hq, .inr rfl⟩
    | beside he hi =>
      rw [deed?_eq_none he]
      simpa using ih hi

theorem trail_of_done (h : Crew.Run work (.idle w) log s) {k : κ} {v : ρ}
    (hi : s.tasks i = some ⟨k, .done v⟩) : (work k).Trail (deeds i log) (.done v) := by
  obtain ⟨p, hp, hrest | hrest⟩ := trail_of_run h hi
  · cases hrest
    exact hp
  · cases hrest

end

end ClusterFleet
