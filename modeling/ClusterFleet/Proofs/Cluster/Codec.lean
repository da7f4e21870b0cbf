import ClusterFleet.Cluster.Codec
import ClusterFleet.Proofs.Json.Members

namespace ClusterFleet
open Json

namespace Json.Record

variable {names : List String} {name : String} {value : Json} {members : List Member}

theorem ofMembers?_eq_some_iff {r : Record} : ofMembers? names members = some r ↔
    (∀ n ∈ names, (valuesOf n members).length ≤ 1) ∧ r = ⟨members⟩ := by
  simp [ofMembers?, @eq_comm _ r]

theorem ofMembers?_setMember {r : Record} (h : ofMembers? names members = some r) :
    ofMembers? names (setMember name value members) = some ⟨setMember name value members⟩ := by
  obtain ⟨hone, -⟩ := ofMembers?_eq_some_iff.1 h
  refine ofMembers?_eq_some_iff.2 ⟨fun n hn => ?_, rfl⟩
  by_cases he : n = name
  · subst he
    rw [valuesOf_setMember_self (hone n hn)]
    exact Nat.le_refl 1
  · rw [valuesOf_setMember_of_ne he]
    exact hone n hn

theorem get?_setMember_self (h : (valuesOf name members).length ≤ 1) :
    (⟨setMember name value members⟩ : Record).get? name = some value :=
  lastMember_setMember_self h

theorem get?_setMember_of_ne {other : String} (h : other ≠ name) :
    (⟨setMember name value members⟩ : Record).get? other = (⟨members⟩ : Record).get? other :=
  lastMember_setMember_of_ne h

theorem required_setMember_self {decode : Json → Option α}
    (h : (valuesOf name members).length ≤ 1) :
    (⟨setMember name value members⟩ : Record).required name decode = decode value := by
  rw [required, get?_setMember_self h]
  rfl

theorem required_setMember_of_ne {decode : Json → Option α} {other : String} (h : other ≠ name) :
    (⟨setMember name value members⟩ : Record).required other decode =
      (⟨members⟩ : Record).required other decode := by
  rw [required, get?_setMember_of_ne h]
  rfl

theorem optional_setMember_self {decode : Json → Option α} (h : (valuesOf name members).length ≤ 1)
    (hv : value.isNull = false) :
    (⟨setMember name value members⟩ : Record).optional name decode = (decode value).map some := by
  rw [optional, get?_setMember_self h]
  cases value <;> first | rfl | cases hv

theorem optional_setMember_of_ne {decode : Json → Option α} {other : String} (h : other ≠ name) :
    (⟨setMember name value members⟩ : Record).optional other decode =
      (⟨members⟩ : Record).optional other decode := by
  rw [optional, get?_setMember_of_ne h]
  rfl

theorem optional_of_text {r : Record} {text : Option String}
    (h : r.get? name = some (.ofOption .str text)) : r.optional name asString? = some text := by
  cases text <;> rw [optional, h] <;> rfl

end Json.Record

namespace Metadata

def versionMember : String := "resourceVersion"

/-- Without the version, which changes with each write. -/
def unversioned (m : Metadata) : Metadata :=
  { m with carried := dropMember versionMember m.carried }

def ofChecked (members : List Member) : Metadata where
  name := (lastMember "name" members).bind asString?
  generateName := (lastMember "generateName" members).bind asString?
  inNamespace := (lastMember "namespace" members).bind asString?
  labels := do some ((← (← lastMember "labels" members).asObject?).filterMap textMember)
  carried := members.filter fun m => carriedFields.any (·.1 = m.1)

variable {members : List Member} {m : Metadata}

theorem ofJson?_obj (members : List Member) : ofJson? (.obj members) =
    (members.foldlM (Check.addField (usedFields ++ carriedFields)) []).map ofChecked := by
  simp only [ofJson?, form, Check.object]
  cases members.foldlM (Check.addField (usedFields ++ carriedFields)) [] <;> rfl

theorem unversioned_ofChecked {members' : List Member}
    (h : dropMember versionMember members = dropMember versionMember members') :
    (ofChecked members).unversioned = (ofChecked members').unversioned := by
  have hlast {name : String} (hn : name ≠ versionMember) :
      lastMember name members = lastMember name members' := by
    rw [← lastMember_dropMember_of_ne hn, h, lastMember_dropMember_of_ne hn]
  have hcarried : dropMember versionMember
      (members.filter fun m => carriedFields.any (·.1 = m.1)) = dropMember versionMember
        (members'.filter fun m => carriedFields.any (·.1 = m.1)) := by
    rw [dropMember_filter, h, dropMember_filter]
  unfold unversioned ofChecked
  rw [hlast (by decide), hlast (by decide), hlast (by decide), hlast (by decide), hcarried]

theorem ofJson?_setMember (h : ofJson? (.obj members) = some m) (version : String) :
    ∃ m', ofJson? (.obj (setMember versionMember (.str version) members)) = some m' ∧
      m'.unversioned = m.unversioned := by
  rw [ofJson?_obj] at h
  obtain ⟨checked, hc, rfl⟩ := Option.map_eq_some_iff.1 h
  have hfield : (usedFields ++ carriedFields).find? (·.1 = versionMember) =
      some (versionMember, Check.text) := rfl
  have htext : Check.text (.str version) = some (.str version) := rfl
  obtain ⟨checked', hc', he⟩ := Check.foldlM_addField_setMember hfield rfl htext hc
  refine ⟨ofChecked checked', ?_, (unversioned_ofChecked he).symm⟩
  rw [ofJson?_obj, hc']
  rfl

theorem lastMember_checked {checked : List Member} {key : String}
    (hf : (usedFields ++ carriedFields).find? (·.1 = key) = some (key, Check.text))
    (hc : members.foldlM (Check.addField (usedFields ++ carriedFields)) [] = some checked) :
    (lastMember key checked).bind asString? = (lastMember key members).bind asString? := by
  have hnone : (valuesOf key []).length ≤ 1 := Nat.zero_le 1
  have hl := Check.lastMember_foldlM_addField hf hnone hc
  simpa [lastMember] using hl

theorem name_ofJson? (h : ofJson? (.obj members) = some m) :
    m.name = (lastMember "name" members).bind asString? := by
  rw [ofJson?_obj] at h
  obtain ⟨checked, hc, rfl⟩ := Option.map_eq_some_iff.1 h
  exact lastMember_checked rfl hc

theorem inNamespace_ofJson? (h : ofJson? (.obj members) = some m) :
    m.inNamespace = (lastMember "namespace" members).bind asString? := by
  rw [ofJson?_obj] at h
  obtain ⟨checked, hc, rfl⟩ := Option.map_eq_some_iff.1 h
  exact lastMember_checked rfl hc

end Metadata

/-- The aspect is the one that its name reads as. -/
def Aspect.IsProper (a : Aspect) : Prop := ofName a.name = a

theorem Aspect.isProper_ofName (s : String) : (ofName s).IsProper := by
  rw [IsProper, name_ofName]

namespace Condition

theorem isProper_ofJson? {j : Json} {c : Condition} (h : ofJson? j = some c) :
    c.aspect.IsProper := by
  simp only [ofJson?, Option.bind_eq_bind, Option.pure_def, Option.bind_eq_some_iff,
    Option.some.injEq] at h
  obtain ⟨_, _, name, _, _, _, _, _, _, _, _, _, _, _, rfl⟩ := h
  exact Aspect.isProper_ofName name

theorem ofJson?_toJson {c : Condition} (h : c.aspect.IsProper) : ofJson? c.toJson = some c := by
  have hnames : ∀ n ∈ fieldNames, (valuesOf n (membersOf c.toJson)).length ≤ 1 := by
    simp [fieldNames, toJson, valuesOf, membersOf]
  have hr : Record.ofJson? fieldNames c.toJson = some ⟨membersOf c.toJson⟩ :=
    Record.ofMembers?_eq_some_iff.2 ⟨hnames, rfl⟩
  have haspect : (⟨membersOf c.toJson⟩ : Record).required "type" asString? =
      some c.aspect.name := rfl
  have hverdict : (⟨membersOf c.toJson⟩ : Record).required "status" Verdict.ofJson? =
      some c.verdict := by
    show Verdict.ofJson? c.verdict.toJson = _
    cases c.verdict <;> rfl
  have hreason : (⟨membersOf c.toJson⟩ : Record).optional "reason" asString? = some c.reason :=
    Record.optional_of_text rfl
  have hmessage : (⟨membersOf c.toJson⟩ : Record).optional "message" asString? = some c.message :=
    Record.optional_of_text rfl
  have htransitioned : (⟨membersOf c.toJson⟩ : Record).optional "lastTransitionTime" asString? =
      some c.transitioned := Record.optional_of_text rfl
  have hupdated : (⟨membersOf c.toJson⟩ : Record).optional "lastUpdatedTime" asString? =
      some c.updated := Record.optional_of_text rfl
  simp only [ofJson?, hr, haspect, hverdict, hreason, hmessage, htransitioned, hupdated,
    Option.bind_eq_bind, Option.bind_some, Option.pure_def]
  rw [h]

theorem listOfJson?_listToJson {cs : List Condition} (h : ∀ c ∈ cs, c.aspect.IsProper) :
    listOfJson? (listToJson cs) = some cs := by
  show (cs.map toJson).mapM ofJson? = some cs
  induction cs with
  | nil => rfl
  | cons c rest ih =>
    obtain ⟨hc, hrest⟩ := List.forall_mem_cons.1 h
    rw [List.map_cons, List.mapM_cons, ofJson?_toJson hc, ih hrest]
    rfl

theorem isProper_listOfJson? {j : Json} {cs : List Condition} (h : listOfJson? j = some cs) :
    ∀ c ∈ cs, c.aspect.IsProper := by
  cases j with
  | arr items =>
    replace h : items.mapM ofJson? = some cs := h
    induction items generalizing cs with
    | nil =>
      cases h
      exact nofun
    | cons j rest ih =>
      rw [List.mapM_cons] at h
      obtain ⟨c, hc, h⟩ := Option.bind_eq_some_iff.1 h
      obtain ⟨cs, hcs, h⟩ := Option.bind_eq_some_iff.1 h
      cases h
      exact List.forall_mem_cons.2 ⟨isProper_ofJson? hc, ih hcs⟩
  | _ => cases h

theorem arrives_toJson (c : Condition) : Arrives c.toJson := by
  have htext (text : Option String) : Arrives (.ofOption .str text) := by
    cases text
    · exact arrives_null
    · exact arrives_str _
  simp only [toJson, arrives_obj_iff, List.forall_mem_cons]
  exact ⟨arrives_str _, arrives_str _, htext _, htext _, htext _, htext _, nofun⟩

end Condition

namespace Status

def IsProper (s : Status) : Prop := ∀ c ∈ s.conditions, c.aspect.IsProper

theorem isProper_ofJson? {j : Json} {s : Status} (h : ofJson? j = some s) : s.IsProper := by
  simp only [ofJson?, Option.bind_eq_bind, Option.pure_def, Option.bind_eq_some_iff,
    Option.some.injEq] at h
  obtain ⟨r, _, cs, hcs, rfl⟩ := h
  simp only [Record.withDefault] at hcs
  split at hcs
  · cases hcs
    exact nofun
  · exact Condition.isProper_listOfJson? hcs

variable {s : Status} {members : List Member}

theorem arrives_conditions (s : Status) : Arrives (Condition.listToJson s.conditions) := by
  refine arrives_arr_iff.2 fun j hj => ?_
  obtain ⟨c, _, rfl⟩ := List.mem_map.1 hj
  exact c.arrives_toJson

def memberNames : List String := ["conditions"]

theorem ofJson?_setMember (h : s.IsProper) {r : Record}
    (hr : Record.ofMembers? memberNames members = some r) :
    ofJson? (.obj (setMember "conditions" (Condition.listToJson s.conditions) members)) =
      some s := by
  have hone : (valuesOf "conditions" members).length ≤ 1 :=
    (Record.ofMembers?_eq_some_iff.1 hr).1 "conditions" (List.mem_singleton.2 rfl)
  have hset : Record.ofJsonFrom? 0 ["conditions"] (.obj (setMember "conditions"
      (Condition.listToJson s.conditions) members)) = _ := Record.ofMembers?_setMember hr
  simp only [ofJson?, hset, Record.withDefault, Record.get?_setMember_self hone,
    Condition.listOfJson?_listToJson h, Option.bind_eq_bind, Option.bind_some, Option.pure_def]

theorem exists_record {j : Json} (h : ofJson? j = some s) :
    ∃ r, Record.ofMembers? memberNames (membersOf j) = some r := by
  cases j with
  | obj members =>
    obtain ⟨r, hr, _⟩ := Option.bind_eq_some_iff.1 h
    exact ⟨r, hr⟩
  | _ => exact ⟨⟨[]⟩, rfl⟩

end Status

namespace Descriptor

def unversioned (d : Descriptor) : Descriptor := { d with metadata := d.metadata.unversioned }

def memberNames : List String := ["metadata", "spec", "status"]

variable {members : List Member} {d : Descriptor} {j : Json}

theorem ofJson?_obj_eq_some_iff : ofJson? (.obj members) = some d ↔
    Record.ofMembers? memberNames members = some ⟨members⟩ ∧
      (⟨members⟩ : Record).required "metadata" Metadata.ofJson? = some d.metadata ∧
      (⟨members⟩ : Record).required "spec" ClusterSpec.ofJson? = some d.spec ∧
      (⟨members⟩ : Record).optional "status" Status.ofJson? = some d.status := by
  have hrecord : Record.ofJson? ["metadata", "spec", "status"] (.obj members) =
      Record.ofMembers? memberNames members := rfl
  simp only [ofJson?, hrecord, Option.bind_eq_bind, Option.pure_def, Option.bind_eq_some_iff,
    Option.some.injEq]
  constructor
  · rintro ⟨r, hr, m, hm, spec, hspec, status, hstatus, rfl⟩
    obtain ⟨_, rfl⟩ := Record.ofMembers?_eq_some_iff.1 hr
    exact ⟨hr, hm, hspec, hstatus⟩
  · rintro ⟨hr, hm, hspec, hstatus⟩
    exact ⟨_, hr, _, hm, _, hspec, _, hstatus, rfl⟩

theorem length_valuesOf (h : ofJson? (.obj members) = some d) {name : String}
    (hn : name ∈ memberNames) : (valuesOf name members).length ≤ 1 :=
  (Record.ofMembers?_eq_some_iff.1 (ofJson?_obj_eq_some_iff.1 h).1).1 name hn

theorem ofJson?_setMetadata (h : ofJson? (.obj members) = some d) {m : Metadata}
    (hj : Metadata.ofJson? j = some m) :
    ofJson? (.obj (setMember "metadata" j members)) = some { d with metadata := m } := by
  have hone : (valuesOf "metadata" members).length ≤ 1 := length_valuesOf h (by decide)
  obtain ⟨hr, hm, hspec, hstatus⟩ := ofJson?_obj_eq_some_iff.1 h
  refine ofJson?_obj_eq_some_iff.2 ⟨Record.ofMembers?_setMember hr, ?_, ?_, ?_⟩
  · rw [Record.required_setMember_self hone, hj]
  · rw [Record.required_setMember_of_ne (by decide), hspec]
  · rw [Record.optional_setMember_of_ne (by decide), hstatus]

theorem ofJson?_setStatus (h : ofJson? (.obj members) = some d) {s : Status}
    (hn : j.isNull = false) (hj : Status.ofJson? j = some s) :
    ofJson? (.obj (setMember "status" j members)) = some (d.withStatus s) := by
  have hone : (valuesOf "status" members).length ≤ 1 := length_valuesOf h (by decide)
  obtain ⟨hr, hm, hspec, hstatus⟩ := ofJson?_obj_eq_some_iff.1 h
  refine ofJson?_obj_eq_some_iff.2 ⟨Record.ofMembers?_setMember hr, ?_, ?_, ?_⟩
  · rw [Record.required_setMember_of_ne (by decide), hm]
    rfl
  · rw [Record.required_setMember_of_ne (by decide), hspec]
    rfl
  · rw [Record.optional_setMember_self hone hn, hj]
    rfl

theorem exists_metadata (h : ofJson? (.obj members) = some d) :
    ∃ ms, lastMember "metadata" members = some (.obj ms) ∧
      Metadata.ofJson? (.obj ms) = some d.metadata := by
  obtain ⟨-, hm, -⟩ := ofJson?_obj_eq_some_iff.1 h
  obtain ⟨j, hj, hm⟩ := Option.bind_eq_some_iff.1 hm
  cases j with
  | obj ms => exact ⟨ms, hj, hm⟩
  | _ => cases hm

theorem exists_statusRecord (h : ofJson? (.obj members) = some d) :
    ∃ r, Record.ofMembers? Status.memberNames
      (membersOf ((lastMember "status" members).getD .null)) = some r := by
  obtain ⟨-, -, -, hs⟩ := ofJson?_obj_eq_some_iff.1 h
  have hget : (⟨members⟩ : Record).get? "status" = lastMember "status" members := rfl
  rw [Record.optional, hget] at hs
  cases hl : lastMember "status" members with
  | none => exact ⟨⟨[]⟩, rfl⟩
  | some j =>
    rw [hl] at hs
    cases j with
    | obj ms =>
      obtain ⟨s, hs, -⟩ := Option.map_eq_some_iff.1 hs
      exact Status.exists_record hs
    | _ => exact ⟨⟨[]⟩, rfl⟩

theorem isProper_status (h : ofJson? (.obj members) = some d) : ∀ s ∈ d.status, s.IsProper := by
  intro s hs
  obtain ⟨-, -, -, ho⟩ := ofJson?_obj_eq_some_iff.1 h
  rw [Option.mem_def.1 hs, Record.optional] at ho
  split at ho
  · cases ho
  · cases ho
  · obtain ⟨s', hs', he⟩ := Option.map_eq_some_iff.1 ho
    cases he
    exact Status.isProper_ofJson? hs'

end Descriptor

end ClusterFleet
