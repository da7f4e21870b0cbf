import ClusterFleet.Condition.Merge
import Mathlib.Data.Finset.Card
import Mathlib.Data.List.Induction

namespace ClusterFleet.Condition

def aspects (cs : List Condition) : List Aspect := cs.map (·.aspect)

/-- What is observed but not on record, in the order in which it is first observed. -/
def newcomers (known observed : List Condition) : List Aspect :=
  ((aspects observed).filter (· ∉ aspects known)).eraseDups

/-- Where an aspect stands first: where it stood, or else where it is appended. -/
def place (known observed : List Condition) (a : Aspect) : Nat :=
  (aspects known ++ newcomers known observed).idxOf a

def last? (a : Aspect) (observed : List Condition) : Option Condition :=
  (observed.filter (·.aspect = a)).getLast?

def confirms (a : Aspect) (v : Verdict) (observed : List Condition) : Bool :=
  observed.all fun c => c.aspect ≠ a || c.verdict = v

/--
Since when the verdict on an aspect has been the same: since the time on record, if all observations
confirm the verdict on record, and else since now.
-/
def since (known observed : List Condition) (a : Aspect) (now : String) : String :=
  (((find? a known).filter fun old => confirms a old.verdict observed).bind
    (·.transitioned)).getD now

def settled (known observed : List Condition) (now : String) (last : Condition) : Condition :=
  { last with
    updated := some now
    transitioned := some (since known observed last.aspect now) }

def untimed (c : Condition) : Condition := { c with updated := none, transitioned := none }

section
variable {known observed : List Condition} {now : String} {new : Condition} {a : Aspect}

theorem getElem?_idxOf_aspects (a : Aspect) (cs : List Condition) :
    cs[(aspects cs).idxOf a]? = find? a cs := by
  induction cs with
  | nil => rfl
  | cons c cs ih =>
    by_cases h : c.aspect = a
    · subst h
      rw [find?_cons_self]
      simp [aspects]
    · rw [find?_cons_of_ne h, ← ih]
      simp [aspects, h]

theorem getElem?_record_of_ne {cs : List Condition} {i : Nat}
    (h : (aspects cs).idxOf new.aspect ≠ i) (hi : i < cs.length) :
    (record now new cs)[i]? = cs[i]? := by
  induction cs generalizing i with
  | nil => cases hi
  | cons old rest ih =>
    by_cases ho : old.aspect = new.aspect
    · rw [record, if_pos ho]
      cases i with
      | zero => simp [aspects, ho] at h
      | succ i => simp
    · rw [record, if_neg ho]
      cases i with
      | zero => simp
      | succ i =>
        have hrest : (aspects rest).idxOf new.aspect ≠ i := by
          simpa [aspects, List.idxOf_cons, beq_false_of_ne ho] using h
        simpa using ih hrest (by simpa using hi)

theorem recordAll_concat (now : String) (known observed : List Condition) (c : Condition) :
    recordAll now known (observed ++ [c]) = record now c (recordAll now known observed) := by
  rw [recordAll, recordAll, List.foldl_concat]

theorem aspects_concat (observed : List Condition) (c : Condition) :
    aspects (observed ++ [c]) = aspects observed ++ [c.aspect] := by
  simp [aspects]

theorem mem_newcomers :
    a ∈ newcomers known observed ↔ a ∈ aspects observed ∧ a ∉ aspects known := by
  simp [newcomers]

theorem newcomers_concat (known observed : List Condition) (c : Condition) :
    newcomers known (observed ++ [c]) =
      if c.aspect ∈ aspects known ++ newcomers known observed then newcomers known observed
      else newcomers known observed ++ [c.aspect] := by
  rw [newcomers, aspects_concat, List.filter_append, List.eraseDups_append, ← newcomers]
  by_cases hk : c.aspect ∈ aspects known
  · simp [hk, List.removeAll]
  · by_cases ho : c.aspect ∈ aspects observed
    · simp [hk, ho, List.removeAll, mem_newcomers]
    · simp [hk, ho, List.removeAll, mem_newcomers, List.eraseDups_cons]

theorem nodup_newcomers (known observed : List Condition) : (newcomers known observed).Nodup := by
  induction observed using List.reverseRecOn with
  | nil => exact List.nodup_nil
  | append_singleton observed c ih =>
    rw [newcomers_concat]
    split
    · exact ih
    · next h =>
      rw [← List.concat_eq_append]
      exact ih.concat fun hc => h (List.mem_append_right _ hc)

theorem length_newcomers (known observed : List Condition) : (newcomers known observed).length =
    ((aspects observed).toFinset \ (aspects known).toFinset).card := by
  rw [← List.toFinset_card_of_nodup (nodup_newcomers known observed)]
  congr 1
  ext a
  simp [mem_newcomers]

theorem aspects_recordAll (now : String) (known observed : List Condition) :
    aspects (recordAll now known observed) = aspects known ++ newcomers known observed := by
  induction observed using List.reverseRecOn with
  | nil => simp [recordAll, newcomers, aspects]
  | append_singleton observed c ih =>
    have hrec := map_aspect_record now c (recordAll now known observed)
    rw [recordAll_concat, newcomers_concat, aspects, hrec, ← aspects, ih]
    split <;> simp

theorem getElem?_recordAll_of_kept {i : Nat} {c : Condition} (hc : known[i]? = some c)
    (h : c.aspect ∉ aspects observed ∨ (aspects known).idxOf c.aspect ≠ i) :
    (recordAll now known observed)[i]? = some c := by
  have hi : i < known.length := (List.getElem?_eq_some_iff.1 hc).1
  have hat : (aspects known)[i]? = some c.aspect := by simp [aspects, hc]
  induction observed using List.reverseRecOn with
  | nil => exact hc
  | append_singleton observed new ih =>
    rw [aspects_concat, List.mem_append, List.mem_singleton, not_or] at h
    have hlen : i < (recordAll now known observed).length := by
      have := congrArg List.length (aspects_recordAll now known observed)
      simp only [aspects, List.length_append, List.length_map] at this
      omega
    rw [recordAll_concat, getElem?_record_of_ne ?_ hlen]
    · exact ih (h.imp_left (·.1))
    · -- Whatever stands first on the new aspect is another position.
      rw [aspects_recordAll]
      rintro rfl
      by_cases hn : new.aspect ∈ aspects known
      · rw [List.idxOf_append_of_mem hn] at hat h
        rw [List.getElem?_idxOf hn, Option.some_inj] at hat
        rcases h with h | h
        · exact h.2 hat.symm
        · exact h (hat ▸ rfl)
      · rw [List.idxOf_append_of_notMem hn] at hi
        simp only [aspects, List.length_map] at hi
        omega

theorem last?_concat_self (observed : List Condition) (c : Condition) :
    last? c.aspect (observed ++ [c]) = some c := by
  simp [last?]

theorem last?_concat_of_ne {c : Condition} (h : c.aspect ≠ a) (observed : List Condition) :
    last? a (observed ++ [c]) = last? a observed := by
  simp [last?, h]

theorem mem_of_last? {c : Condition} (h : last? a observed = some c) :
    c ∈ observed ∧ c.aspect = a := by
  simpa using List.mem_of_getLast? h

theorem exists_last? (h : a ∈ aspects observed) : ∃ c, last? a observed = some c := by
  obtain ⟨c, hc, rfl⟩ := List.mem_map.1 h
  have hne : observed.filter (·.aspect = c.aspect) ≠ [] := by
    intro hn
    exact List.not_mem_nil (hn ▸ List.mem_filter.2 ⟨hc, by simp⟩)
  exact ⟨_, List.getLast?_eq_some_getLast hne⟩

theorem confirms_concat (v : Verdict) (observed : List Condition) (c : Condition) :
    confirms a v (observed ++ [c]) =
      (confirms a v observed && (c.aspect ≠ a || c.verdict = v)) := by
  simp [confirms]

theorem confirms_of_not_mem (h : last? a observed = none) (v : Verdict) :
    confirms a v observed = true := by
  rw [confirms, List.all_eq_true]
  intro c hc
  have hne : c.aspect ≠ a := by
    rintro rfl
    obtain ⟨c', hc'⟩ := exists_last? (List.mem_map_of_mem hc)
    rw [h] at hc'
    cases hc'
  simp [hne]

theorem since_concat_of_ne {c : Condition} (h : c.aspect ≠ a) (known observed : List Condition)
    (now : String) : since known (observed ++ [c]) a now = since known observed a now := by
  simp [since, confirms_concat, h]

theorem since_concat_self {last c : Condition} (hl : last? c.aspect observed = some last) :
    since known (observed ++ [c]) c.aspect now =
      if last.verdict = c.verdict then since known observed c.aspect now else now := by
  obtain ⟨hmem, ha⟩ := mem_of_last? hl
  have hlast : ∀ v, confirms c.aspect v observed = true → last.verdict = v := by
    intro v hv
    simpa [ha] using List.all_eq_true.1 hv last hmem
  cases hf : find? c.aspect known with
  | none => simp [since, hf]
  | some old =>
    by_cases hv : last.verdict = c.verdict
    · -- The verdict was the same before, so that it adds nothing to be confirmed.
      have hsame : confirms c.aspect old.verdict (observed ++ [c]) =
          confirms c.aspect old.verdict observed := by
        rw [confirms_concat]
        cases hc : confirms c.aspect old.verdict observed with
        | false => rfl
        | true => simp [← hv, hlast _ hc]
      simp [since, hf, Option.filter_some, hv, hsame]
    · have hnot : confirms c.aspect old.verdict (observed ++ [c]) = false := by
        rw [confirms_concat]
        cases hc : confirms c.aspect old.verdict observed with
        | false => rfl
        | true => simpa [← hlast _ hc] using Ne.symm hv
      simp [since, hf, Option.filter_some, hv, hnot]

theorem since_concat_first {c : Condition} (hl : last? c.aspect observed = none) :
    some (since known (observed ++ [c]) c.aspect now) =
      (renewed c now (find? c.aspect known)).transitioned := by
  cases hf : find? c.aspect known with
  | none => simp [since, hf, renewed, first]
  | some old =>
    have hc : confirms c.aspect old.verdict (observed ++ [c]) =
        (c.verdict = old.verdict : Bool) := by
      simp [confirms_concat, confirms_of_not_mem hl]
    by_cases hv : old.verdict = c.verdict
    · rw [since, hf, Option.filter_some, hc, decide_eq_true hv.symm]
      cases ht : old.transitioned <;> simp [ht, hv, renewed, replacing]
    · simp [since, hf, Option.filter_some, hc, hv, Ne.symm hv, renewed, replacing]

/-- What is on record for an aspect: the last observation of it, if there is any. -/
theorem find?_recordAll (now : String) (known observed : List Condition) (a : Aspect) :
    find? a (recordAll now known observed) = match last? a observed with
      | none => find? a known
      | some c => some (settled known observed now c) := by
  -- From the end: `ih` is what was on record as the last one came.
  induction observed using List.reverseRecOn with
  | nil => rfl
  | append_singleton observed c ih =>
    rw [recordAll_concat, find?_record, ih]
    by_cases ha : c.aspect = a
    · subst ha
      rw [if_pos rfl, last?_concat_self]
      congr 1
      cases hl : last? c.aspect observed with
      | none =>
        rw [settled, since_concat_first hl]
        cases find? c.aspect known <;> rfl
      | some last =>
        obtain ⟨_, hla⟩ := mem_of_last? hl
        rw [settled, since_concat_self hl]
        by_cases hv : last.verdict = c.verdict <;>
          simp [renewed, replacing, settled, hv, hla]
    · rw [if_neg ha, last?_concat_of_ne ha]
      cases hl : last? a observed with
      | none => rfl
      | some last =>
        obtain ⟨_, rfl⟩ := mem_of_last? hl
        simp only [settled, since_concat_of_ne ha]

theorem record_untimed (now : String) (new : Condition) (cs : List Condition) :
    record now new.untimed cs = record now new cs := by
  induction cs with
  | nil => rfl
  | cons old rest ih =>
    have hnew : new.untimed.aspect = new.aspect := rfl
    rw [record, record, hnew, ih]
    rfl

theorem recordAll_untimed (now : String) (known observed : List Condition) :
    recordAll now known (observed.map untimed) = recordAll now known observed := by
  induction observed using List.reverseRecOn with
  | nil => rfl
  | append_singleton observed c ih =>
    rw [List.map_append, List.map_singleton, recordAll_concat, recordAll_concat, ih,
      record_untimed]

end

/-- What a merge of observations into what is known makes of each position. -/
structure Merged (known observed : List Condition) (now : Instant) (result : List Condition) :
    Prop where
  length : result.length =
    known.length + ((aspects observed).toFinset \ (aspects known).toFinset).card
  aspects : aspects result = aspects known ++ newcomers known observed
  once : (newcomers known observed).Nodup
  /-- What is not observed, or not the first on its aspect, stays as it is. -/
  kept : ∀ (i : Nat) (c : Condition), known[i]? = some c →
    c.aspect ∉ Condition.aspects observed ∨ (Condition.aspects known).idxOf c.aspect ≠ i →
    result[i]? = some c
  renewed : ∀ a ∈ Condition.aspects observed, ∃ c, last? a observed = some c ∧
    result[place known observed a]? = some (settled known observed (Time.rfc3339 now) c)
  timeless : ∀ observed', observed'.map untimed = observed.map untimed →
    merge known observed' now = result
  distinct : Distinct known → Distinct result

theorem merged_merge (known observed : List Condition) (now : Instant) :
    Merged known observed now (merge known observed now) := by
  have haspects := aspects_recordAll (Time.rfc3339 now) known observed
  refine ⟨?_, haspects, nodup_newcomers known observed,
    fun i c => getElem?_recordAll_of_kept, ?_, ?_, ?_⟩
  · have hlen := congrArg List.length haspects
    rw [List.length_append, length_newcomers] at hlen
    simp only [Condition.aspects, List.length_map] at hlen
    exact hlen
  · intro a ha
    obtain ⟨c, hc⟩ := exists_last? ha
    have hfind := find?_recordAll (Time.rfc3339 now) known observed a
    rw [← getElem?_idxOf_aspects, haspects, hc] at hfind
    exact ⟨c, hc, hfind⟩
  · intro observed' h
    rw [merge, ← recordAll_untimed, h, recordAll_untimed, ← merge]
  · intro hd
    have hnodup : (Condition.aspects known ++ newcomers known observed).Nodup := by
      refine List.nodup_append.2 ⟨hd, nodup_newcomers known observed, ?_⟩
      rintro a ha _ hb rfl
      exact (mem_newcomers.1 hb).2 ha
    rw [← haspects] at hnodup
    exact hnodup

end ClusterFleet.Condition
