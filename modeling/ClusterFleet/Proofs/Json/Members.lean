import ClusterFleet.Json.Check
import ClusterFleet.Json.Decode
import ClusterFleet.Json.MergePatch
import ClusterFleet.Json.Transit

namespace ClusterFleet.Json

section
variable {name other : String} {value : Json} {members : List Member}

theorem lastMember_cons (name : String) (m : Member) (rest : List Member) :
    lastMember name (m :: rest) =
      (lastMember name rest <|> if m.1 = name then some m.2 else none) := rfl

theorem valuesOf_cons (name : String) (m : Member) (rest : List Member) :
    valuesOf name (m :: rest) = if m.1 = name then m.2 :: valuesOf name rest
      else valuesOf name rest := by
  simp only [valuesOf, List.filter_cons, decide_eq_true_eq]
  split <;> rfl

theorem dropMember_cons (name : String) (m : Member) (rest : List Member) :
    dropMember name (m :: rest) = if m.1 = name then dropMember name rest
      else m :: dropMember name rest := by
  by_cases hm : m.1 = name <;> simp [dropMember, hm]

theorem lastMember_eq_getLast? (name : String) (members : List Member) :
    lastMember name members = (valuesOf name members).getLast? := by
  induction members with
  | nil => rfl
  | cons m rest ih =>
    rw [lastMember_cons, valuesOf_cons, ih]
    split
    · rw [List.getLast?_cons]
      cases (valuesOf name rest).getLast? <;> rfl
    · cases (valuesOf name rest).getLast? <;> rfl

theorem valuesOf_setMember_of_ne (h : other ≠ name) :
    valuesOf other (setMember name value members) = valuesOf other members := by
  induction members with
  | nil => simp [setMember, valuesOf, h.symm]
  | cons m rest ih =>
    obtain ⟨k, v⟩ := m
    by_cases hk : k = name
    · subst hk
      simp [setMember, valuesOf_cons, h.symm]
    · simp [setMember, hk, valuesOf_cons, ih]

theorem valuesOf_setMember_self (h : (valuesOf name members).length ≤ 1) :
    valuesOf name (setMember name value members) = [value] := by
  induction members with
  | nil => simp [setMember, valuesOf]
  | cons m rest ih =>
    obtain ⟨k, v⟩ := m
    rw [valuesOf_cons] at h
    by_cases hk : k = name
    · have hrest : valuesOf name rest = [] := by simpa [hk] using h
      simp [setMember, hk, valuesOf_cons, hrest]
    · have hrest : (valuesOf name rest).length ≤ 1 := by simpa [hk] using h
      simp [setMember, hk, valuesOf_cons, ih hrest]

theorem valuesOf_dropMember_self : valuesOf name (dropMember name members) = [] := by
  simp [valuesOf, dropMember, List.filter_filter]

theorem valuesOf_dropMember_of_ne (h : other ≠ name) :
    valuesOf other (dropMember name members) = valuesOf other members := by
  simp only [valuesOf, dropMember, List.filter_filter]
  congr 1
  apply List.filter_congr
  intro m _
  by_cases hm : m.1 = other <;> simp [hm, h]

theorem lastMember_setMember_self (h : (valuesOf name members).length ≤ 1) :
    lastMember name (setMember name value members) = some value := by
  simp [lastMember_eq_getLast?, valuesOf_setMember_self h]

theorem lastMember_setMember_of_ne (h : other ≠ name) :
    lastMember other (setMember name value members) = lastMember other members := by
  simp [lastMember_eq_getLast?, valuesOf_setMember_of_ne h]

theorem lastMember_dropMember_of_ne (h : other ≠ name) :
    lastMember other (dropMember name members) = lastMember other members := by
  simp [lastMember_eq_getLast?, valuesOf_dropMember_of_ne h]

theorem dropMember_setMember_self :
    dropMember name (setMember name value members) = dropMember name members := by
  induction members with
  | nil => simp [setMember, dropMember]
  | cons m rest ih =>
    obtain ⟨k, v⟩ := m
    by_cases hk : k = name <;> simp [setMember, hk, dropMember_cons, ih]

theorem dropMember_setMember_of_ne (h : other ≠ name) :
    dropMember other (setMember name value members) =
      setMember name value (dropMember other members) := by
  induction members with
  | nil => simp [setMember, dropMember, h.symm]
  | cons m rest ih =>
    obtain ⟨k, v⟩ := m
    by_cases hk : k = name
    · subst hk
      simp [setMember, dropMember_cons, h.symm]
    · rw [setMember, if_neg hk, dropMember_cons, dropMember_cons, ih]
      by_cases hko : k = other
      · simp [hko]
      · simp [hko, setMember, hk]

theorem dropMember_filter (p : Member → Bool) :
    dropMember name (members.filter p) = (dropMember name members).filter p := by
  simp [dropMember, List.filter_filter, Bool.and_comm]

theorem dropMember_comm :
    dropMember other (dropMember name members) = dropMember name (dropMember other members) :=
  dropMember_filter _

end

section
variable {name : String} {value : Json} {members : List Member}

theorem sent_obj (members : List Member) : sent (.obj members) = .obj (sentMembers members) := by
  rw [sent]

theorem sentMembers_eq (members : List Member) :
    sentMembers members = members.map fun m => (m.1, sent m.2) := by
  induction members with
  | nil => rfl
  | cons m rest ih => rw [sentMembers, ih, List.map_cons]

theorem sentItems_eq (items : List Json) : sentItems items = items.map sent := by
  induction items with
  | nil => rfl
  | cons j rest ih => rw [sentItems, ih, List.map_cons]

theorem lastMember_sentMembers (name : String) (members : List Member) :
    lastMember name (sentMembers members) = (lastMember name members).map sent := by
  induction members with
  | nil => rfl
  | cons m rest ih =>
    rw [sentMembers, lastMember_cons, lastMember_cons, ih]
    cases lastMember name rest with
    | some v => rfl
    | none => by_cases hm : m.1 = name <;> simp [hm]

theorem sentMembers_setMember (name : String) (value : Json) (members : List Member) :
    sentMembers (setMember name value members) =
      setMember name value.sent (sentMembers members) := by
  induction members with
  | nil => rfl
  | cons m rest ih =>
    by_cases hm : m.1 = name <;> simp [setMember, sentMembers, hm, ih]

theorem ofWord?_eq_some {w : List Char} {j : Json} (h : ofWord? w = some j) :
    j.asString? = none ∧ membersOf j = [] := by
  unfold ofWord? at h
  split at h
  · cases h
    exact ⟨rfl, rfl⟩
  split at h
  · cases h
    exact ⟨rfl, rfl⟩
  split at h
  · cases h
    exact ⟨rfl, rfl⟩
  obtain ⟨l, -, h⟩ := Option.bind_eq_some_iff.1 h
  split at h <;> cases h <;> exact ⟨rfl, rfl⟩

theorem sent_real (d : Double) :
    (sent (.real d)).asString? = none ∧ membersOf (sent (.real d)) = [] := by
  rw [sent]
  cases h : ofWord? (realText d).toList with
  | none => exact ⟨rfl, rfl⟩
  | some j => exact ofWord?_eq_some h

theorem asString?_sent (j : Json) : j.sent.asString? = j.asString? := by
  cases j with
  | real d => exact (sent_real d).1
  | _ => simp [sent, asString?]

theorem membersOf_sent (j : Json) : membersOf j.sent = sentMembers (membersOf j) := by
  cases j with
  | real d => exact (sent_real d).2
  | _ => simp [sent, membersOf, sentMembers]

theorem field?_eq (name : String) (j : Json) : j.field? name = lastMember name (membersOf j) := by
  cases j <;> rfl

theorem field?_sent (name : String) (j : Json) : j.sent.field? name = (j.field? name).map sent := by
  rw [field?_eq, field?_eq, membersOf_sent, lastMember_sentMembers]

theorem field_sent (name : String) (j : Json) : j.sent.field name = (j.field name).sent := by
  rw [field, field, field?_sent]
  cases j.field? name with
  | none => simp [sent]
  | some v => rfl

/-- The text of the value reads back as the value. -/
def Arrives (j : Json) : Prop := sent j = j

theorem arrives_str (s : String) : Arrives (.str s) := by simp [Arrives, sent]

theorem arrives_null : Arrives .null := by simp [Arrives, sent]

theorem arrives_arr_iff {items : List Json} : Arrives (.arr items) ↔ ∀ j ∈ items, Arrives j := by
  have hmap := List.map_inj_left (f := sent) (g := id) (l := items)
  rw [List.map_id] at hmap
  simpa [Arrives, sent, sentItems_eq] using hmap

theorem arrives_obj_iff : Arrives (.obj members) ↔ ∀ m ∈ members, Arrives m.2 := by
  have hmap := List.map_inj_left (f := fun m => (m.1, sent m.2)) (g := id) (l := members)
  rw [List.map_id] at hmap
  simpa [Arrives, sent, sentMembers_eq, Prod.ext_iff] using hmap

end

namespace Check

section
variable {fields : List (String × Check)} {key : String} {c : Check} {value value' : Json}
  {m : Member} {members done done' r : List Member}

theorem addField_eq_some_iff : addField fields done m = some r ↔
    (fields.find? (·.1 = m.1) = none ∧ r = done) ∨
    ∃ f, fields.find? (·.1 = m.1) = some f ∧
      ((m.2.isNull = true ∧ r = dropMember m.1 done) ∨
        (m.2.isNull = false ∧ ∃ v, f.2 m.2 = some v ∧ r = setMember m.1 v done)) := by
  unfold addField
  cases hf : fields.find? (·.1 = m.1) with
  | none => simp [@eq_comm _ r]
  | some f =>
    cases hn : m.2.isNull with
    | true => simp [@eq_comm _ r]
    | false => cases hv : f.2 m.2 <;> simp [addChecked, hv, @eq_comm _ r]

theorem dropMember_addField (h : addField fields done m = some r) :
    dropMember m.1 r = dropMember m.1 done := by
  rcases addField_eq_some_iff.1 h with ⟨_, rfl⟩ | ⟨f, _, ⟨_, rfl⟩ | ⟨_, v, _, rfl⟩⟩
  · rfl
  · simp [dropMember, List.filter_filter]
  · exact dropMember_setMember_self

theorem addField_congr (h : dropMember key done = dropMember key done')
    (hr : addField fields done m = some r) :
    ∃ r', addField fields done' m = some r' ∧ dropMember key r = dropMember key r' := by
  rcases addField_eq_some_iff.1 hr with ⟨hf, rfl⟩ | ⟨f, hf, ⟨hn, rfl⟩ | ⟨hn, v, hv, rfl⟩⟩
  · exact ⟨done', addField_eq_some_iff.2 (.inl ⟨hf, rfl⟩), h⟩
  · refine ⟨_, addField_eq_some_iff.2 (.inr ⟨f, hf, .inl ⟨hn, rfl⟩⟩), ?_⟩
    rw [dropMember_comm, h, dropMember_comm]
  · refine ⟨_, addField_eq_some_iff.2 (.inr ⟨f, hf, .inr ⟨hn, v, hv, rfl⟩⟩), ?_⟩
    by_cases hk : key = m.1
    · subst hk
      rw [dropMember_setMember_self, dropMember_setMember_self, h]
    · rw [dropMember_setMember_of_ne hk, dropMember_setMember_of_ne hk, h]

theorem foldlM_addField_congr (h : dropMember key done = dropMember key done')
    (hr : members.foldlM (addField fields) done = some r) :
    ∃ r', members.foldlM (addField fields) done' = some r' ∧
      dropMember key r = dropMember key r' := by
  induction members generalizing done done' with
  | nil =>
    cases hr
    exact ⟨done', rfl, h⟩
  | cons m rest ih =>
    obtain ⟨d, hd, hr⟩ := Option.bind_eq_some_iff.1 hr
    obtain ⟨d', hd', h'⟩ := addField_congr h hd
    obtain ⟨r', hr', he⟩ := ih h' hr
    exact ⟨r', by rw [List.foldlM_cons, hd']; exact hr', he⟩

/-- A member that passes its check can be set without a change to any other. -/
theorem foldlM_addField_setMember (hf : fields.find? (·.1 = key) = some (key, c))
    (hn : value.isNull = false) (hv : c value = some value')
    (hr : members.foldlM (addField fields) done = some r) :
    ∃ r', (setMember key value members).foldlM (addField fields) done = some r' ∧
      dropMember key r = dropMember key r' := by
  have hstep (done : List Member) : addField fields done (key, value) =
      some (setMember key value' done) :=
    addField_eq_some_iff.2 (.inr ⟨(key, c), hf, .inr ⟨hn, value', hv, rfl⟩⟩)
  induction members generalizing done with
  | nil =>
    cases hr
    refine ⟨setMember key value' r, ?_, dropMember_setMember_self.symm⟩
    simp [setMember, hstep]
  | cons m rest ih =>
    obtain ⟨k, v⟩ := m
    obtain ⟨d, hd, hr⟩ := Option.bind_eq_some_iff.1 hr
    by_cases hk : k = key
    · subst hk
      -- With the old value or the new one, all but what stands under the key comes out the same.
      have hd' : dropMember k d = dropMember k (setMember k value' done) :=
        (dropMember_addField hd).trans dropMember_setMember_self.symm
      obtain ⟨r', hr', he⟩ := foldlM_addField_congr hd' hr
      refine ⟨r', ?_, he⟩
      rw [setMember, if_pos rfl, List.foldlM_cons, hstep]
      exact hr'
    · obtain ⟨r', hr', he⟩ := ih hr
      refine ⟨r', ?_, he⟩
      rw [setMember, if_neg hk, List.foldlM_cons, hd]
      exact hr'

theorem valuesOf_addField_of_ne (hk : key ≠ m.1) (h : addField fields done m = some r) :
    valuesOf key r = valuesOf key done := by
  rw [← valuesOf_dropMember_of_ne hk, dropMember_addField h, valuesOf_dropMember_of_ne hk]

theorem valuesOf_addField_text (hf : fields.find? (·.1 = m.1) = some (m.1, text))
    (hd : (valuesOf m.1 done).length ≤ 1) (h : addField fields done m = some r) :
    (m.2 = .null ∧ valuesOf m.1 r = []) ∨ (∃ s, m.2 = .str s ∧ valuesOf m.1 r = [.str s]) := by
  rcases addField_eq_some_iff.1 h with ⟨hnone, _⟩ | ⟨f, hsome, ⟨hn, rfl⟩ | ⟨_, v, hv, rfl⟩⟩
  · rw [hf] at hnone
    cases hnone
  · refine .inl ⟨?_, valuesOf_dropMember_self⟩
    cases hm : m.2 <;> simp [hm, isNull] at hn ⊢
  · rw [hf] at hsome
    cases hsome
    cases hm : m.2 with
    | str s =>
      rw [hm] at hv
      cases hv
      exact .inr ⟨s, rfl, valuesOf_setMember_self hd⟩
    | _ =>
      rw [hm] at hv
      cases hv

theorem lastMember_foldlM_addField (hf : fields.find? (·.1 = key) = some (key, text))
    (hd : (valuesOf key done).length ≤ 1) (hr : members.foldlM (addField fields) done = some r) :
    (lastMember key r).bind asString? =
      (lastMember key members <|> lastMember key done).bind asString? := by
  induction members generalizing done with
  | nil =>
    cases hr
    rfl
  | cons m rest ih =>
    obtain ⟨d, hstep, hr⟩ := Option.bind_eq_some_iff.1 hr
    have hlast : (valuesOf key d).length ≤ 1 ∧ (lastMember key d).bind asString? =
        ((if m.1 = key then some m.2 else none) <|> lastMember key done).bind asString? := by
      simp only [lastMember_eq_getLast?]
      by_cases hk : m.1 = key
      · subst hk
        rcases valuesOf_addField_text hf hd hstep with ⟨hm, hv⟩ | ⟨s, hm, hv⟩ <;>
          simp [hm, hv, asString?]
      · rw [valuesOf_addField_of_ne (Ne.symm hk) hstep]
        simp [hk, hd]
    rw [ih hlast.1 hr, lastMember_cons]
    cases lastMember key rest with
    | some v => rfl
    | none => exact hlast.2

end

end Check

end ClusterFleet.Json
