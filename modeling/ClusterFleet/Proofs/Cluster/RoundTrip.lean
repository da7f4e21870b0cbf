import Mathlib.Data.List.Forall2
import ClusterFleet.Proofs.Cluster.Codec

namespace ClusterFleet
open Json

namespace Json

theorem asString?_eq_some_iff {j : Json} {s : String} : j.asString? = some s ↔ j = .str s := by
  cases j <;> simp [asString?]

theorem listOf?_eq_some_iff {decode : Json → Option α} {j : Json} {as : List α} :
    listOf? decode j = some as ↔
      ∃ items, j = .arr items ∧ List.Forall₂ (fun item a => decode item = some a) items as := by
  cases j with
  | arr items =>
    simp only [listOf?, Json.arr.injEq, exists_eq_left']
    induction items generalizing as with
    | nil => cases as <;> simp
    | cons j rest ih => cases as <;> simp [List.mapM_cons, ih, Option.bind_eq_some_iff]
  | _ => simp [listOf?]

theorem lastMember_eq_none {name : String} {members : List Member}
    (h : ∀ m ∈ members, m.1 ≠ name) : lastMember name members = none := by
  induction members with
  | nil => rfl
  | cons m rest ih =>
    obtain ⟨hm, hrest⟩ := List.forall_mem_cons.1 h
    rw [lastMember_cons, ih hrest, if_neg hm]
    rfl

theorem lastMember_zip_cons {name : String} {names : List String} (h : name ∉ names) (j : Json)
    (items : List Json) : lastMember name ((name :: names).zip (j :: items)) = some j := by
  have hrest : lastMember name (names.zip items) = none :=
    lastMember_eq_none fun m hm he => h (he ▸ (List.of_mem_zip hm).1)
  rw [List.zip_cons_cons, lastMember_cons, hrest, if_pos rfl]
  rfl

namespace Record

variable {r : Record} {name : String}

theorem required_text_iff {s : String} :
    r.required name asString? = some s ↔ r.get? name = some (.str s) := by
  simp [required, Option.bind_eq_some_iff, asString?_eq_some_iff]

theorem optional_text_iff {text : Option String} :
    r.optional name asString? = some text ↔ (r.get? name).getD .null = .ofOption .str text := by
  unfold optional
  split
  · next h => cases text <;> simp [h, ofOption]
  · next h => cases text <;> simp [h, ofOption]
  · next j hj h =>
    cases text with
    | none => simpa [h, ofOption] using hj
    | some s => simp [h, ofOption, asString?_eq_some_iff]

end Record
end Json

namespace Aspect

variable {a b : Aspect}

theorem IsProper.eq_iff (ha : a.IsProper) (hb : b.IsProper) : a = b ↔ a.name = b.name :=
  ⟨congrArg name, fun h => by rw [← ha, ← hb, h]⟩

theorem IsProper.ne_other (h : a.IsProper) : a ≠ .other "Ready" ∧ a ≠ .other "Offline" := by
  constructor <;> rintro rfl <;> simp [IsProper, ofName, name] at h

end Aspect

theorem Verdict.name_ofName? {s : String} {v : Verdict} (h : ofName? s = some v) : v.name = s := by
  unfold ofName? at h
  split at h
  · next hs => cases h; exact hs.symm
  · split at h
    · next hs => cases h; exact hs.symm
    · split at h
      · next hs => cases h; exact hs.symm
      · cases h

namespace Condition

variable {j : Json} {c : Condition}

theorem ofJson?_eq_some_iff : ofJson? j = some c ↔ c.aspect.IsProper ∧
    ∃ r, Record.ofJson? fieldNames j = some r ∧
      r.required "type" asString? = some c.aspect.name ∧
      r.required "status" Verdict.ofJson? = some c.verdict ∧
      r.optional "reason" asString? = some c.reason ∧
      r.optional "message" asString? = some c.message ∧
      r.optional "lastTransitionTime" asString? = some c.transitioned ∧
      r.optional "lastUpdatedTime" asString? = some c.updated := by
  simp only [ofJson?, Option.bind_eq_bind, Option.pure_def, Option.bind_eq_some_iff,
    Option.some.injEq]
  constructor
  · rintro ⟨r, hr, name, hname, v, hv, reason, hreason, message, hmessage, transitioned,
      htransitioned, updated, hupdated, rfl⟩
    refine ⟨Aspect.isProper_ofName name, r, hr, ?_, hv, hreason, hmessage, htransitioned, hupdated⟩
    rw [hname, Aspect.name_ofName]
  · rintro ⟨hproper, r, hr, hname, hv, hreason, hmessage, htransitioned, hupdated⟩
    refine ⟨r, hr, _, hname, _, hv, _, hreason, _, hmessage, _, htransitioned, _, hupdated, ?_⟩
    rw [hproper]

def typeText? : Json → Option String
  | .obj members => (lastMember "type" members).bind asString?
  | .arr (j :: _) => j.asString?
  | _ => none

theorem typeText?_toJson (c : Condition) : typeText? c.toJson = some c.aspect.name := rfl

theorem typeText?_of_record {r : Record} (h : Record.ofJson? fieldNames j = some r) :
    typeText? j = r.required "type" asString? := by
  cases j with
  | obj members =>
    obtain ⟨-, rfl⟩ := Record.ofMembers?_eq_some_iff.1 h
    rfl
  | arr items =>
    obtain ⟨⟨hlen, -⟩, rfl⟩ := Option.ite_none_right_eq_some.1 h |>.imp_right Option.some.inj
    cases items with
    | nil => exact absurd hlen (by decide)
    | cons j rest =>
      have hfirst : lastMember "type" (fieldNames.zip (j :: rest)) = some j :=
        lastMember_zip_cons (by decide) j rest
      show j.asString? = (lastMember "type" (fieldNames.zip (j :: rest))).bind asString?
      rw [hfirst]
      rfl
  | _ => cases h

/-- Whatever form it is read from, a condition keeps its type as written. -/
theorem typeText?_of_read (h : ofJson? j = some c) : typeText? j = some c.aspect.name := by
  obtain ⟨-, r, hr, hname, -⟩ := ofJson?_eq_some_iff.1 h
  rw [typeText?_of_record hr, hname]

/-- An object of known members with the verdict given by its name. -/
def IsPlain : Json → Prop
  | .obj members =>
    (∀ m ∈ members, m.1 ∈ fieldNames) ∧ ∃ s, lastMember "status" members = some (.str s)
  | _ => False

theorem field_toJson_of_not_mem {key : String} (h : key ∉ fieldNames) :
    c.toJson.field key = .null := by
  have hnone : lastMember key (membersOf c.toJson) = none :=
    lastMember_eq_none fun m hm he => h (he ▸ List.mem_map_of_mem (f := Prod.fst) hm)
  show (lastMember key (membersOf c.toJson)).getD .null = .null
  rw [hnone]
  rfl

theorem field_toJson_of_plain (h : ofJson? j = some c) (hplain : IsPlain j) (key : String) :
    c.toJson.field key = j.field key := by
  cases j with
  | obj members =>
    obtain ⟨hknown, s, hs⟩ := hplain
    obtain ⟨-, r, hr, hname, hv, hreason, hmessage, htransitioned, hupdated⟩ :=
      ofJson?_eq_some_iff.1 h
    obtain ⟨-, rfl⟩ := Record.ofMembers?_eq_some_iff.1 hr
    by_cases hkey : key ∈ fieldNames
    · simp only [fieldNames, List.mem_cons, List.not_mem_nil, or_false] at hkey
      obtain rfl | rfl | rfl | rfl | rfl | rfl := hkey
      · have htype : lastMember "type" members = some (.str c.aspect.name) :=
          Record.required_text_iff.1 hname
        simp [field, field?, htype, toJson, lastMember]
      · have hverdict : Verdict.ofName? s = some c.verdict := by
          simpa [Record.required, Record.get?, hs, Verdict.ofJson?] using hv
        simp [field, field?, hs, toJson, lastMember, Verdict.toJson, Verdict.name_ofName? hverdict]
      · exact (Record.optional_text_iff.1 hreason).symm
      · exact (Record.optional_text_iff.1 hmessage).symm
      · exact (Record.optional_text_iff.1 htransitioned).symm
      · exact (Record.optional_text_iff.1 hupdated).symm
    · have hnone : lastMember key members = none :=
        lastMember_eq_none fun m hm he => hkey (he ▸ hknown m hm)
      rw [field_toJson_of_not_mem hkey, field, field?, hnone]
      rfl
  | _ => cases hplain

/-- What is written of a condition that was read from `item`. -/
structure Survives (item : Json) (c : Condition) : Prop where
  read : ofJson? item = some c
  verbatim : typeText? c.toJson = typeText? item
  proper : c.aspect ≠ .other "Ready" ∧ c.aspect ≠ .other "Offline"
  agrees : IsPlain item → ∀ key, c.toJson.field key = item.field key

theorem survives_of_read (h : ofJson? j = some c) : Survives j c where
  read := h
  verbatim := by rw [typeText?_toJson, typeText?_of_read h]
  proper := (isProper_ofJson? h).ne_other
  agrees := field_toJson_of_plain h

/-- Conditions have one type in memory if and only if their types are written alike. -/
theorem aspect_eq_iff {j' : Json} {c' : Condition} (h : ofJson? j = some c)
    (h' : ofJson? j' = some c') : c.aspect = c'.aspect ↔ typeText? j = typeText? j' := by
  rw [typeText?_of_read h, typeText?_of_read h', Option.some.injEq]
  exact (isProper_ofJson? h).eq_iff (isProper_ofJson? h')

end Condition

namespace Status

variable {j : Json} {s : Status}

def list? : Json → Option Json
  | .obj members => lastMember "conditions" members
  | .arr items => items.head?
  | _ => none

def items (j : Json) : List Json := ((list? j).bind asArray?).getD []

theorem items_toJson (s : Status) : items s.toJson = s.conditions.map Condition.toJson := rfl

theorem get?_of_record {r : Record} (h : Record.ofJsonFrom? 0 ["conditions"] j = some r) :
    r.get? "conditions" = list? j := by
  cases j with
  | obj members =>
    obtain ⟨-, rfl⟩ := Record.ofMembers?_eq_some_iff.1 h
    rfl
  | arr items =>
    obtain ⟨⟨-, hlen⟩, rfl⟩ := Option.ite_none_right_eq_some.1 h |>.imp_right Option.some.inj
    match items, hlen with
    | [], _ => rfl
    | [_], _ => rfl
  | _ => cases h

theorem forall₂_items (h : ofJson? j = some s) :
    List.Forall₂ (fun item c => Condition.ofJson? item = some c) (items j) s.conditions := by
  simp only [ofJson?, Option.bind_eq_bind, Option.pure_def, Option.bind_eq_some_iff,
    Option.some.injEq] at h
  obtain ⟨r, hr, cs, hcs, rfl⟩ := h
  rw [Record.withDefault, get?_of_record hr] at hcs
  split at hcs
  · next hnone =>
    cases hcs
    simp [items, hnone]
  · next hsome =>
    obtain ⟨written, rfl, hread⟩ := listOf?_eq_some_iff.1 hcs
    simpa [items, hsome, asArray?] using hread

theorem ofJson?_toJson (h : s.IsProper) : ofJson? s.toJson = some s := by
  obtain ⟨r, hr⟩ : ∃ r, Record.ofMembers? memberNames [] = some r := ⟨_, rfl⟩
  exact ofJson?_setMember h hr

end Status

namespace ClusterSpec

def fieldNames : List String := ["apiEndpoint", "caBundle", "secretRef", "disabledTLSValidations"]

theorem ofJson?_toJson (spec : ClusterSpec) : ofJson? spec.toJson = some spec := by
  have hnames : ∀ n ∈ fieldNames, (valuesOf n (membersOf spec.toJson)).length ≤ 1 := by
    simp [fieldNames, toJson, valuesOf, membersOf]
  have hr : Record.ofJson? ["apiEndpoint", "caBundle", "secretRef", "disabledTLSValidations"]
      spec.toJson = some ⟨membersOf spec.toJson⟩ := Record.ofMembers?_eq_some_iff.2 ⟨hnames, rfl⟩
  have hendpoint : (⟨membersOf spec.toJson⟩ : Record).required "apiEndpoint" asString? =
      some spec.apiEndpoint := rfl
  have hbundle : (⟨membersOf spec.toJson⟩ : Record).optional "caBundle" asString? =
      some spec.caBundle := Record.optional_of_text rfl
  have hsecret : (⟨membersOf spec.toJson⟩ : Record).required "secretRef" secretRefName? =
      some spec.secretName := rfl
  have hvalidations : (⟨membersOf spec.toJson⟩ : Record).optional "disabledTLSValidations"
      (listOf? asString?) = some spec.disabledValidations := by
    have hget : (⟨membersOf spec.toJson⟩ : Record).get? "disabledTLSValidations" =
      some (.ofOption (fun l => .arr (l.map .str)) spec.disabledValidations) := rfl
    rw [Record.optional, hget]
    cases spec.disabledValidations with
    | none => rfl
    | some texts =>
      have htexts : listOf? asString? (.arr (texts.map .str)) = some texts :=
        listOf?_eq_some_iff.2 ⟨_, rfl, by simp [List.forall₂_map_left_iff, asString?]⟩
      simp [ofOption, htexts]
  simp only [ofJson?, hr, hendpoint, hbundle, hsecret, hvalidations, Option.bind_eq_bind,
    Option.bind_some, Option.pure_def]

end ClusterSpec

/-- Reading what was written of `a` gives `a` again, and writing that gives the same text. -/
structure Json.Returns (decode : Json → Option α) (encode : α → Json) (a : α) : Prop where
  read : decode (encode a) = some a
  written : (decode (encode a)).map encode = some (encode a)

theorem Json.Returns.of_read {decode : Json → Option α} {encode : α → Json} {a : α}
    (h : decode (encode a) = some a) : Returns decode encode a :=
  ⟨h, by rw [h]; rfl⟩

/-- What has been read comes back from any further trip. A status is written with its conditions in
the order read, each as `Survives` says, and types are equal in memory where they are as written. -/
theorem roundTrip_of_read (v : Json) :
    (∀ spec, ClusterSpec.ofJson? v = some spec →
      Returns ClusterSpec.ofJson? ClusterSpec.toJson spec) ∧
    (∀ s, Status.ofJson? v = some s →
      Returns Status.ofJson? Status.toJson s ∧
      Status.items s.toJson = s.conditions.map Condition.toJson ∧
      List.Forall₂ Condition.Survives (Status.items v) s.conditions) ∧
    ∀ item item' c c', Condition.ofJson? item = some c → Condition.ofJson? item' = some c' →
      (c.aspect = c'.aspect ↔ Condition.typeText? item = Condition.typeText? item') := by
  refine ⟨fun spec _ => .of_read spec.ofJson?_toJson, fun s h => ⟨?_, s.items_toJson, ?_⟩,
    fun _ _ _ _ => Condition.aspect_eq_iff⟩
  · exact .of_read (Status.ofJson?_toJson (Status.isProper_ofJson? h))
  · exact (Status.forall₂_items h).imp fun _ _ => Condition.survives_of_read

def Status.mixed : Json :=
  .arr [.arr [.arr [.str "Approved", .obj [("True", .null)], .null, .str "by hand", .null, .null],
    .obj [("type", .str "Ready"), ("status", .str "False"), ("message", .str "no answer")]]]

def ClusterSpec.positional : Json :=
  .arr [.str "https://west:6443", .null, .arr [.str "west-sa"], .arr [.str "*"]]

theorem roundTrip_mixed :
    (∃ s, Status.ofJson? Status.mixed = some s ∧ s.conditions.length = 2 ∧
      Returns Status.ofJson? Status.toJson s ∧
      List.Forall₂ Condition.Survives (Status.items Status.mixed) s.conditions) ∧
    ∃ spec, ClusterSpec.ofJson? ClusterSpec.positional = some spec ∧
      Returns ClusterSpec.ofJson? ClusterSpec.toJson spec := by
  have hs : Status.ofJson? Status.mixed = some ⟨[
      ⟨.other "Approved", .yes, none, some "by hand", none, none⟩,
      ⟨.ready, .no, none, some "no answer", none, none⟩]⟩ := rfl
  have hspec : ClusterSpec.ofJson? ClusterSpec.positional = some
      ⟨"https://west:6443", none, "west-sa", some ["*"]⟩ := rfl
  obtain ⟨hreturns, -, hsurvives⟩ := (roundTrip_of_read Status.mixed).2.1 _ hs
  have hspecReturns := (roundTrip_of_read ClusterSpec.positional).1 _ hspec
  exact ⟨⟨_, hs, rfl, hreturns, hsurvives⟩, _, hspec, hspecReturns⟩

end ClusterFleet
