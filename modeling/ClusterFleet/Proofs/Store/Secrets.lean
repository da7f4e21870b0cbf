import ClusterFleet.Store.Memory
import Mathlib.Data.List.Induction

namespace ClusterFleet

structure SecretId where
  ns : String
  name : String
  deriving DecidableEq

namespace SecretId

/-- The namespace of `j` takes in the beginning of the name of `i`: `west/token` in `members` runs
into `token` in `members/west`. -/
def RunsInto (i j : SecretId) : Prop :=
  ∃ part, j.ns = i.ns ++ "/" ++ part ∧ i.name = part ++ "/" ++ j.name

def Overlaps (i j : SecretId) : Prop := i.RunsInto j ∨ j.RunsInto i

def Meets (i j : SecretId) : Prop := i = j ∨ i.Overlaps j

structure Slashless (i : SecretId) : Prop where
  ns : '/' ∉ i.ns.toList
  name : '/' ∉ i.name.toList

def key (i : SecretId) : String := MemoryStore.secretKey i.ns i.name

section
variable {i j : SecretId}

theorem toList_key (i : SecretId) : i.key.toList = i.ns.toList ++ '/' :: i.name.toList := by
  simp [key, MemoryStore.secretKey, String.toList_append]

theorem RunsInto.key_eq (h : i.RunsInto j) : i.key = j.key := by
  obtain ⟨part, hns, hname⟩ := h
  simp only [key, MemoryStore.secretKey, hns, hname, String.append_assoc]

theorem RunsInto.ns_ne (h : i.RunsInto j) : i.ns ≠ j.ns := by
  obtain ⟨part, hns, -⟩ := h
  intro he
  have hlength := congrArg String.length (he.trans hns)
  simp only [String.length_append] at hlength
  have hslash : "/".length = 1 := rfl
  omega

theorem Overlaps.ns_ne (h : i.Overlaps j) : i.ns ≠ j.ns := by
  rcases h with h | h
  · exact h.ns_ne
  · exact h.ns_ne.symm

theorem Overlaps.ne (h : i.Overlaps j) : i ≠ j := fun he => h.ns_ne (congrArg ns he)

theorem eq_or_runsInto {rest : List Char} (hns : j.ns.toList = i.ns.toList ++ rest)
    (hname : '/' :: i.name.toList = rest ++ '/' :: j.name.toList) : i = j ∨ i.RunsInto j := by
  cases rest with
  | nil =>
    have h₁ : i.ns = j.ns := String.toList_inj.1 (by simpa using hns.symm)
    have h₂ : i.name = j.name := String.toList_inj.1 (List.cons.inj hname).2
    cases i
    cases j
    exact .inl (congrArg₂ mk h₁ h₂)
  | cons c part =>
    obtain ⟨rfl, htail⟩ := List.cons.inj hname
    have hpart : i.name.toList = part ++ '/' :: j.name.toList := htail
    refine .inr ⟨String.ofList part, ?_, ?_⟩
    · simp [← String.toList_inj, String.toList_append, hns]
    · simp [← String.toList_inj, String.toList_append, hpart]

theorem key_eq_iff : i.key = j.key ↔ i.Meets j := by
  constructor
  · intro h
    have hl : i.ns.toList ++ '/' :: i.name.toList = j.ns.toList ++ '/' :: j.name.toList := by
      rw [← toList_key, h, toList_key]
    rcases List.append_eq_append_iff.1 hl with ⟨rest, hns, hname⟩ | ⟨rest, hns, hname⟩
    · exact (eq_or_runsInto hns hname).imp_right .inl
    · exact (eq_or_runsInto hns hname).imp Eq.symm .inr
  · rintro (rfl | h | h)
    · rfl
    · exact h.key_eq
    · exact h.key_eq.symm

instance (i : SecretId) : DecidablePred i.Meets := fun _ => decidable_of_iff _ key_eq_iff

theorem mem_ns_of_runsInto (h : i.RunsInto j) : '/' ∈ j.ns.toList := by
  obtain ⟨part, hns, -⟩ := h
  simp [hns, String.toList_append]

theorem mem_name_of_runsInto (h : i.RunsInto j) : '/' ∈ i.name.toList := by
  obtain ⟨part, -, hname⟩ := h
  simp [hname, String.toList_append]

theorem Slashless.not_overlaps (h : i.Slashless) : ¬i.Overlaps j := by
  rintro (hr | hr)
  · exact h.name (mem_name_of_runsInto hr)
  · exact h.ns (mem_ns_of_runsInto hr)

theorem Slashless.eq_of_meets (h : i.Slashless) (hm : i.Meets j) : i = j :=
  hm.resolve_right h.not_overlaps

theorem exists_parts {s : String} (h : '/' ∈ s.toList) : ∃ a b, s = a ++ "/" ++ b := by
  obtain ⟨as, bs, hs⟩ := List.append_of_mem h
  refine ⟨String.ofList as, String.ofList bs, ?_⟩
  simp [← String.toList_inj, String.toList_append, hs]

theorem slashless_iff : i.Slashless ↔ ∀ j, ¬i.Overlaps j := by
  refine ⟨fun h j => h.not_overlaps, fun h => ⟨fun hns => ?_, fun hname => ?_⟩⟩
  · obtain ⟨a, b, hab⟩ := exists_parts hns
    exact h ⟨a, b ++ "/" ++ i.name⟩ (.inr ⟨b, hab, rfl⟩)
  · obtain ⟨a, b, hab⟩ := exists_parts hname
    exact h ⟨i.ns ++ "/" ++ a, b⟩ (.inl ⟨a, rfl, hab⟩)

end

end SecretId

structure SecretPut where
  id : SecretId
  data : SecretData

def lastPut? (P : SecretId → Prop) [DecidablePred P] (puts : List SecretPut) : Option SecretPut :=
  (puts.filter fun p => P p.id).getLast?

section
variable {P : SecretId → Prop} [DecidablePred P] {puts : List SecretPut} {p : SecretPut}

theorem lastPut?_concat (P : SecretId → Prop) [DecidablePred P] (puts : List SecretPut)
    (p : SecretPut) :
    lastPut? P (puts ++ [p]) = if P p.id then some p else lastPut? P puts := by
  by_cases h : P p.id <;> simp [lastPut?, h]

theorem of_lastPut? (h : lastPut? P puts = some p) : p ∈ puts ∧ P p.id := by
  simpa using List.mem_filter.1 (List.mem_of_getLast? h)

theorem lastPut?_eq_none_iff : lastPut? P puts = none ↔ ∀ p ∈ puts, ¬P p.id := by
  simp [lastPut?]

end

namespace MemoryStore

def putAll (m : MemoryStore) (puts : List SecretPut) : MemoryStore :=
  puts.foldl (fun m p => m.putSecret p.id.ns p.id.name p.data) m

theorem putAll_concat (m : MemoryStore) (puts : List SecretPut) (p : SecretPut) :
    m.putAll (puts ++ [p]) = (m.putAll puts).putSecret p.id.ns p.id.name p.data := by
  simp [putAll]

theorem secret_putSecret (m : MemoryStore) (i j : SecretId) (data : SecretData) :
    (m.putSecret j.ns j.name data).secret i.ns i.name =
      if i.Meets j then some data else m.secret i.ns i.name := by
  show Table.find? i.key (Table.insert j.key data m.secrets) = _
  split
  · next h =>
    rw [SecretId.key_eq_iff.2 h]
    exact Table.find?_insert_self _ _ _
  · next h => exact Table.find?_insert_of_ne (mt SecretId.key_eq_iff.1 h) _ _

theorem secret_putAll (m : MemoryStore) (i : SecretId) (puts : List SecretPut) :
    (m.putAll puts).secret i.ns i.name =
      ((lastPut? i.Meets puts).map (·.data)).or (m.secret i.ns i.name) := by
  -- From the end, where the put stands that decides.
  induction puts using List.reverseRecOn with
  | nil => rfl
  | append_singleton puts p ih =>
    rw [putAll_concat, secret_putSecret, ih, lastPut?_concat]
    split <;> rfl

def stocked (puts : List SecretPut) : MemoryStore := putAll {} puts

/-- What is read is what was last put under this namespace and this name. -/
def ReadsOwn (i : SecretId) (puts : List SecretPut) : Prop :=
  (stocked puts).secret i.ns i.name = (lastPut? (· = i) puts).map (·.data)

/-- As long as none but secrets of this class are put, each of them is read as its own. -/
def KeptApart (S : SecretId → Prop) : Prop :=
  ∀ puts, (∀ p ∈ puts, S p.id) → ∀ i, S i → ReadsOwn i puts

structure Answers (puts : List SecretPut) (i : SecretId) : Prop where
  latest : (stocked puts).secret i.ns i.name = (lastPut? i.Meets puts).map (·.data)
  own_iff : ReadsOwn i puts ↔ ∀ p, lastPut? i.Meets puts = some p → p.id ≠ i →
    ∃ q, lastPut? (· = i) puts = some q ∧ q.data = p.data
  changes_iff (j : SecretId) (data : SecretData) : j ≠ i →
    ((stocked (puts ++ [⟨j, data⟩])).secret i.ns i.name ≠ (stocked puts).secret i.ns i.name ↔
      i.Overlaps j ∧ (stocked puts).secret i.ns i.name ≠ some data)

section
variable {i j : SecretId} {puts : List SecretPut}

theorem secret_stocked (i : SecretId) (puts : List SecretPut) :
    (stocked puts).secret i.ns i.name = (lastPut? i.Meets puts).map (·.data) := by
  rw [stocked, secret_putAll]
  exact Option.or_none

theorem secret_stocked_concat (i j : SecretId) (data : SecretData) (puts : List SecretPut) :
    (stocked (puts ++ [⟨j, data⟩])).secret i.ns i.name =
      if i.Meets j then some data else (stocked puts).secret i.ns i.name := by
  rw [secret_stocked, secret_stocked, lastPut?_concat]
  split <;> rfl

theorem lastPut?_eq_of_meets {p : SecretPut} (h : lastPut? i.Meets puts = some p) (hp : p.id = i) :
    lastPut? (· = i) puts = some p := by
  induction puts using List.reverseRecOn with
  | nil => cases h
  | append_singleton puts q ih =>
    rw [lastPut?_concat] at h ⊢
    by_cases hq : q.id = i
    · rw [if_pos (.inl hq.symm)] at h
      rw [if_pos hq, h]
    · by_cases hm : i.Meets q.id
      · rw [if_pos hm] at h
        cases h
        exact absurd hp hq
      · rw [if_neg hm] at h
        rw [if_neg hq, ih h]

theorem readsOwn_iff : ReadsOwn i puts ↔ ∀ p, lastPut? i.Meets puts = some p → p.id ≠ i →
    ∃ q, lastPut? (· = i) puts = some q ∧ q.data = p.data := by
  rw [ReadsOwn, secret_stocked]
  constructor
  · intro h p hp _
    rw [hp] at h
    exact Option.map_eq_some_iff.1 h.symm
  · intro h
    cases hl : lastPut? i.Meets puts with
    | none =>
      -- What is put under the secret's own names meets it.
      have hnone : lastPut? (· = i) puts = none :=
        lastPut?_eq_none_iff.2 fun p hp he => lastPut?_eq_none_iff.1 hl p hp (.inl he.symm)
      rw [hnone]
    | some p =>
      by_cases hp : p.id = i
      · rw [lastPut?_eq_of_meets hl hp]
      · obtain ⟨q, hq, hdata⟩ := h p hl hp
        rw [hq, Option.map_some, Option.map_some, hdata]

theorem answers (puts : List SecretPut) (i : SecretId) : Answers puts i where
  latest := secret_stocked i puts
  own_iff := readsOwn_iff
  changes_iff j data hj := by
    rw [secret_stocked_concat]
    by_cases h : i.Overlaps j
    · simp [SecretId.Meets, h, eq_comm]
    · simp [SecretId.Meets, h, hj.symm]

theorem readsOwn_of_apart (h : ∀ p ∈ puts, ¬i.Overlaps p.id) : ReadsOwn i puts := by
  refine readsOwn_iff.2 fun p hp hne => ?_
  obtain ⟨hmem, hm⟩ := of_lastPut? hp
  exact absurd (hm.resolve_left hne.symm) (h p hmem)

theorem not_readsOwn_of_overlaps (h : i.Overlaps j) (data : SecretData) :
    ¬ReadsOwn i [⟨j, data⟩] := by
  have hj : j ≠ i := h.ne.symm
  have hm : i.Meets j := .inr h
  simp [readsOwn_iff, lastPut?, hm, hj]

theorem keptApart_iff {S : SecretId → Prop} :
    KeptApart S ↔ ∀ i j, S i → S j → ¬i.RunsInto j := by
  constructor
  · intro h i j hi hj hr
    have hputs : ∀ p ∈ [(⟨j, []⟩ : SecretPut)], S p.id := by simpa using hj
    exact not_readsOwn_of_overlaps (.inl hr) [] (h _ hputs i hi)
  · intro h puts hputs i hi
    refine readsOwn_of_apart fun p hp ho => ?_
    rcases ho with hr | hr
    · exact h _ _ hi (hputs p hp) hr
    · exact h _ _ (hputs p hp) hi hr

/-- Whatever is put, a secret is read as its own just when it has no slash. -/
theorem forall_readsOwn_iff : (∀ puts, ReadsOwn i puts) ↔ i.Slashless := by
  rw [SecretId.slashless_iff]
  refine ⟨fun h j ho => not_readsOwn_of_overlaps ho [] (h _), fun h puts => ?_⟩
  exact readsOwn_of_apart fun p _ => h p.id

end

end MemoryStore
end ClusterFleet
