import ClusterFleet.Operator.Watch
import ClusterFleet.Proofs.Cluster.RoundTrip
import ClusterFleet.Proofs.Json.Schema
import ClusterFleet.Proofs.Store.Mirror

namespace ClusterFleet
open Json

namespace Json

theorem length_canonicalMembers_le (members : List Member) :
    (canonicalMembers members).length ≤ members.length := by
  induction members with
  | nil => exact Nat.le_refl 0
  | cons m rest ih =>
    simp only [canonicalMembers]
    split
    · exact Nat.le_succ_of_le ih
    · exact Nat.succ_le_succ ih

theorem canonicalItems_eq (items : List Json) : canonicalItems items = items.map canonical := by
  induction items with
  | nil => rfl
  | cons j rest ih => rw [canonicalItems, ih, List.map_cons]

/-- At no depth does an object repeat a member. -/
def Unrepeated (j : Json) : Prop := j.canonical = j

variable {name : String} {members : List Member} {items : List Json}

theorem Unrepeated.item (h : Unrepeated (.arr items)) : ∀ j ∈ items, Unrepeated j := by
  have hmap : items.map canonical = items.map id := by
    rw [← canonicalItems_eq, List.map_id]
    simpa [Unrepeated, canonical] using h
  exact List.map_inj_left.1 hmap

theorem Unrepeated.distinct (h : Unrepeated (.obj members)) :
    (∀ name, (valuesOf name members).length ≤ 1) ∧ ∀ m ∈ members, Unrepeated m.2 := by
  replace h : canonicalMembers members = members := by simpa [Unrepeated, canonical] using h
  induction members with
  | nil => exact ⟨fun _ => Nat.zero_le 1, nofun⟩
  | cons m rest ih =>
    obtain ⟨k, v⟩ := m
    simp only [canonicalMembers] at h
    split at h
    · -- A repeated name would have been dropped, and that makes the list shorter.
      have hlen := length_canonicalMembers_le rest
      rw [h, List.length_cons] at hlen
      omega
    · next hk =>
      obtain ⟨hm, hrest⟩ := List.cons.inj h
      obtain ⟨hone, hvalues⟩ := ih hrest
      refine ⟨fun name => ?_, List.forall_mem_cons.2 ⟨(Prod.ext_iff.1 hm).2, hvalues⟩⟩
      rw [valuesOf_cons]
      split
      · next hn =>
        rw [hrest, List.any_eq_true, not_exists] at hk
        have hnone : valuesOf k rest = [] :=
          List.map_eq_nil_iff.2 (List.filter_eq_nil_iff.2 fun m hm he => hk m ⟨hm, he⟩)
        have hk' : name = k := hn.symm
        simp [hk', hnone]
      · exact hone name

theorem Unrepeated.value (h : Unrepeated (.obj members)) {v : Json}
    (hv : v ∈ valuesOf name members) : Unrepeated v := by
  obtain ⟨m, hm, rfl⟩ := List.mem_map.1 hv
  exact h.distinct.2 m (List.mem_filter.1 hm).1

theorem mem_valuesOf_of_lastMember {v : Json} (h : lastMember name members = some v) :
    v ∈ valuesOf name members := by
  rw [lastMember_eq_getLast?] at h
  exact List.mem_of_getLast? h

theorem exists_listOf? {decode : Json → Option α} (h : ∀ j ∈ items, ∃ a, decode j = some a) :
    ∃ as, listOf? decode (.arr items) = some as ∧
      List.Forall₂ (fun j a => decode j = some a) items as := by
  induction items with
  | nil => exact ⟨[], rfl, .nil⟩
  | cons j rest ih =>
    obtain ⟨⟨a, ha⟩, hrest⟩ := List.forall_mem_cons.1 h
    obtain ⟨as, -, has⟩ := ih hrest
    exact ⟨a :: as, listOf?_eq_some_iff.2 ⟨_, rfl, .cons ha has⟩, .cons ha has⟩

namespace Record

variable {decode : Json → Option α}

theorem exists_ofMembers? (h : Unrepeated (.obj members)) (names : List String) :
    ofMembers? names members = some ⟨members⟩ :=
  ofMembers?_eq_some_iff.2 ⟨fun name _ => h.distinct.1 name, rfl⟩

theorem exists_required (hn : Has name members)
    (hv : ∀ v ∈ valuesOf name members, ∃ a, decode v = some a) :
    ∃ a, (⟨members⟩ : Record).required name decode = some a := by
  obtain ⟨v, hlast⟩ := Option.isSome_iff_exists.1 hn
  obtain ⟨a, ha⟩ := hv v (mem_valuesOf_of_lastMember hlast)
  exact ⟨a, Option.bind_eq_some_iff.2 ⟨v, hlast, ha⟩⟩

theorem exists_optional (hv : ∀ v ∈ valuesOf name members, v = .null ∨ ∃ a, decode v = some a) :
    ∃ a, (⟨members⟩ : Record).optional name decode = some a := by
  rw [optional]
  split
  · exact ⟨_, rfl⟩
  · exact ⟨_, rfl⟩
  · next j hj hlast =>
    obtain hnull | ⟨a, ha⟩ := hv j (mem_valuesOf_of_lastMember hlast)
    · exact absurd hnull hj
    · exact ⟨some a, by rw [ha]; rfl⟩

theorem exists_withDefault {default : α}
    (hv : ∀ v ∈ valuesOf name members, ∃ a, decode v = some a) :
    ∃ a, (⟨members⟩ : Record).withDefault name default decode = some a := by
  rw [withDefault]
  split
  · exact ⟨_, rfl⟩
  · next j hlast => exact hv j (mem_valuesOf_of_lastMember hlast)

end Record
end Json

section
variable {j : Json}

theorem exists_text (h : Satisfies Definition.text j) : ∃ s, j.asString? = some s := by
  obtain ⟨s, rfl⟩ := Definition.satisfies_text.1 h
  exact ⟨s, rfl⟩

theorem exists_nullableText (h : Satisfies (Definition.nullable Definition.text) j) :
    j = .null ∨ ∃ s, j.asString? = some s :=
  (Definition.satisfies_nullable.1 h).imp_right exists_text

theorem ClusterSpec.exists_secretRefName? (hu : Unrepeated j)
    (h : Satisfies Definition.secretRef j) : ∃ name, secretRefName? j = some name := by
  simp only [Definition.secretRef, Definition.satisfies_described, Definition.satisfies_requiring,
    List.forall_mem_singleton] at h
  obtain ⟨members, rfl, hname, hvalues⟩ := h
  obtain ⟨name, hread⟩ := Record.exists_required hname fun v hv => exists_text (hvalues v hv)
  have hr : Record.ofJson? ["name"] (.obj members) = some ⟨members⟩ :=
    Record.exists_ofMembers? hu _
  exact ⟨name, by rw [secretRefName?, hr]; exact hread⟩

theorem ClusterSpec.exists_ofJson? (hu : Unrepeated j) (h : Satisfies Definition.spec j) :
    ∃ spec, ofJson? j = some spec := by
  simp only [Definition.spec, Definition.satisfies_requiring, List.forall_mem_cons,
    Definition.satisfies_described] at h
  obtain ⟨members, rfl, ⟨hendpoint, hsecret, -⟩, hendpoints, hbundles, hsecrets, hvalidations, -⟩ :=
    h
  obtain ⟨endpoint, hendpoint⟩ :=
    Record.exists_required hendpoint fun v hv => exists_text (hendpoints v hv)
  obtain ⟨bundle, hbundle⟩ :=
    Record.exists_optional fun v hv => exists_nullableText (hbundles v hv)
  obtain ⟨secret, hsecret⟩ :=
    Record.exists_required hsecret fun v hv => exists_secretRefName? (hu.value hv) (hsecrets v hv)
  obtain ⟨validations, hvalidations⟩ : ∃ a, (⟨members⟩ : Record).optional "disabledTLSValidations"
      (listOf? asString?) = some a := by
    apply Record.exists_optional
    intro v hv
    obtain hnull | hlist := Definition.satisfies_nullable.1 (hvalidations v hv)
    · exact .inl hnull
    · obtain ⟨items, rfl, hitems⟩ := Definition.satisfies_listOf.1 hlist
      obtain ⟨texts, htexts, -⟩ := exists_listOf? fun item hi => exists_text (hitems item hi)
      exact .inr ⟨texts, htexts⟩
  have hr : Record.ofJson? ["apiEndpoint", "caBundle", "secretRef", "disabledTLSValidations"]
      (.obj members) = some ⟨members⟩ := Record.exists_ofMembers? hu _
  simp only [ofJson?, hr, hendpoint, hbundle, hsecret, hvalidations, Option.bind_eq_bind,
    Option.bind_some, Option.pure_def]
  exact ⟨_, rfl⟩

theorem Verdict.exists_ofJson? (h : Satisfies (Definition.oneOf
    [Verdict.name .yes, Verdict.name .no, Verdict.name .unknown]) j) : ∃ v, ofJson? j = some v := by
  obtain ⟨s, hs, rfl⟩ := Definition.satisfies_oneOf.1 h
  simp only [List.mem_cons, List.not_mem_nil, or_false] at hs
  obtain rfl | rfl | rfl := hs
  · exact ⟨.yes, rfl⟩
  · exact ⟨.no, rfl⟩
  · exact ⟨.unknown, rfl⟩

theorem Condition.exists_ofJson? (hu : Unrepeated j) (h : Satisfies Definition.condition j) :
    ∃ c, ofJson? j = some c := by
  simp only [Definition.condition, Definition.satisfies_requiring, List.forall_mem_cons,
    Definition.satisfies_described] at h
  obtain ⟨members, rfl, ⟨hverdict, htype, -⟩, htypes, hverdicts, hreasons, hmessages,
    htransitions, hupdates, -⟩ := h
  obtain ⟨name, htype⟩ := Record.exists_required htype fun v hv => exists_text (htypes v hv)
  obtain ⟨verdict, hverdict⟩ :=
    Record.exists_required hverdict fun v hv => Verdict.exists_ofJson? (hverdicts v hv)
  obtain ⟨reason, hreason⟩ :=
    Record.exists_optional fun v hv => exists_nullableText (hreasons v hv)
  obtain ⟨message, hmessage⟩ :=
    Record.exists_optional fun v hv => exists_nullableText (hmessages v hv)
  obtain ⟨transitioned, htransitioned⟩ :=
    Record.exists_optional fun v hv => exists_nullableText (htransitions v hv)
  obtain ⟨updated, hupdated⟩ :=
    Record.exists_optional fun v hv => exists_nullableText (hupdates v hv)
  have hr : Record.ofJson? fieldNames (.obj members) = some ⟨members⟩ :=
    Record.exists_ofMembers? hu _
  simp only [ofJson?, hr, htype, hverdict, hreason, hmessage, htransitioned, hupdated,
    Option.bind_eq_bind, Option.bind_some, Option.pure_def]
  exact ⟨_, rfl⟩

theorem Status.exists_ofJson? (hu : Unrepeated j) (h : Satisfies Definition.status j) :
    j = .null ∨ ∃ s, ofJson? j = some s := by
  simp only [Definition.status, Definition.satisfies_nullable, Definition.satisfies_record,
    List.forall_mem_singleton] at h
  obtain hnull | ⟨members, rfl, hlists⟩ := h
  · exact .inl hnull
  · right
    obtain ⟨cs, hcs⟩ : ∃ cs, (⟨members⟩ : Record).withDefault "conditions" []
        Condition.listOfJson? = some cs := by
      apply Record.exists_withDefault
      intro v hv
      obtain ⟨items, rfl, hitems⟩ := Definition.satisfies_listOf.1
        (Definition.satisfies_defaulted.1 (hlists v hv))
      obtain ⟨cs, hcs, -⟩ := exists_listOf? fun item hi =>
        Condition.exists_ofJson? ((hu.value hv).item item hi) (hitems item hi)
      exact ⟨cs, hcs⟩
    have hr : Record.ofJsonFrom? 0 ["conditions"] (.obj members) = some ⟨members⟩ :=
      Record.exists_ofMembers? hu _
    simp only [ofJson?, hr, hcs, Option.bind_eq_bind, Option.bind_some, Option.pure_def]
    exact ⟨_, rfl⟩

end

theorem satisfies_ofOption (o : Option String) :
    Satisfies (Definition.nullable Definition.text) (.ofOption .str o) := by
  cases o <;> simp [ofOption]

theorem ClusterSpec.satisfies_toJson (spec : ClusterSpec) :
    Satisfies Definition.spec spec.toJson := by
  have hvalidations : Satisfies (Definition.nullable (Definition.listOf Definition.text))
      (.ofOption (fun l => .arr (l.map .str)) spec.disabledValidations) := by
    cases spec.disabledValidations <;> simp [ofOption]
  have hsecret : Satisfies Definition.secretRef (.obj [("name", .str spec.secretName)]) := by
    simp [Definition.secretRef, Has, lastMember, valuesOf]
  refine Definition.satisfies_requiring.2 ⟨membersOf spec.toJson, rfl, ?_, ?_⟩
  · simp [Has, lastMember, membersOf, toJson]
  · simp [valuesOf, membersOf, toJson, hvalidations, hsecret, satisfies_ofOption,
      -Definition.satisfies_nullable]

theorem Condition.satisfies_toJson (c : Condition) : Satisfies Definition.condition c.toJson := by
  have hverdict : Satisfies (Definition.oneOf [Verdict.name .yes, Verdict.name .no,
      Verdict.name .unknown]) c.verdict.toJson := by
    cases c.verdict <;> simp [Verdict.toJson]
  refine Definition.satisfies_requiring.2 ⟨membersOf c.toJson, rfl, ?_, ?_⟩
  · simp [Has, lastMember, membersOf, toJson]
  · simp [valuesOf, membersOf, toJson, hverdict, satisfies_ofOption,
      -Definition.satisfies_nullable, -Definition.satisfies_oneOf]

theorem Status.satisfies_obj {members : List Member} {cs : List Condition}
    (h : valuesOf "conditions" members = [Condition.listToJson cs]) :
    Satisfies Definition.status (.obj members) := by
  have hlist : Satisfies (Definition.listOf Definition.condition) (Condition.listToJson cs) := by
    refine Definition.satisfies_listOf.2 ⟨_, rfl, fun j hj => ?_⟩
    obtain ⟨c, -, rfl⟩ := List.mem_map.1 hj
    exact c.satisfies_toJson
  refine Definition.satisfies_nullable.2 (.inr (Definition.satisfies_record.2 ⟨members, rfl, ?_⟩))
  simpa [h] using hlist

theorem Status.satisfies_toJson (s : Status) : Satisfies Definition.status s.toJson := by
  have hone : valuesOf "conditions" [("conditions", Condition.listToJson s.conditions)] =
      [Condition.listToJson s.conditions] := rfl
  exact satisfies_obj hone

theorem Descriptor.satisfies_obj {members : List Member} (hspec : Has "spec" members)
    (hspecs : ∀ v ∈ valuesOf "spec" members, Satisfies Definition.spec v)
    (hstatuses : ∀ v ∈ valuesOf "status" members, Satisfies Definition.status v) :
    Satisfies Definition.schema (.obj members) := by
  rw [Definition.schema, Definition.satisfies_titled, Definition.satisfies_described]
  refine Definition.satisfies_requiring.2 ⟨members, rfl, ?_, ?_⟩
  · simpa using hspec
  · simpa using ⟨hspecs, hstatuses⟩

theorem Descriptor.satisfies_toJson (d : Descriptor) : Satisfies Definition.schema d.toJson := by
  obtain ⟨m, spec, status⟩ := d
  cases status with
  | none =>
    refine satisfies_obj ?_ ?_ ?_
    · simp [Has, lastMember]
    · simpa [valuesOf] using spec.satisfies_toJson
    · simp [valuesOf]
  | some s =>
    refine satisfies_obj ?_ ?_ ?_
    · simp [Has, lastMember]
    · simpa [valuesOf] using spec.satisfies_toJson
    · simpa [valuesOf] using s.satisfies_toJson

/-- An object that an API server with the published definition lets in. -/
structure Admitted (j : Json) : Prop where
  unrepeated : Unrepeated j
  version : j.field "apiVersion" = .str apiVersion
  kind : j.field "kind" = .str clusterKind
  metadata : ∃ m, Metadata.ofJson? (j.field "metadata") = some m
  form : Satisfies Definition.schema j

theorem Descriptor.exists_ofJson? {j : Json} (h : Admitted j) : ∃ d, ofJson? j = some d := by
  have hform := h.form
  simp only [Definition.schema, Definition.satisfies_titled, Definition.satisfies_described,
    Definition.satisfies_requiring, List.forall_mem_cons] at hform
  obtain ⟨members, rfl, ⟨hspec, -⟩, hspecs, hstatuses, -⟩ := hform
  have hu := h.unrepeated
  obtain ⟨spec, hspec⟩ := Record.exists_required hspec fun v hv =>
    ClusterSpec.exists_ofJson? (hu.value hv) (hspecs v hv)
  obtain ⟨status, hstatus⟩ := Record.exists_optional fun v hv =>
    Status.exists_ofJson? (hu.value hv) (hstatuses v hv)
  obtain ⟨m, hm⟩ := h.metadata
  have hmetadata : (⟨members⟩ : Record).required "metadata" Metadata.ofJson? = some m := by
    rw [field, field?] at hm
    rw [Record.required, Record.get?]
    cases hl : lastMember "metadata" members with
    | none => rw [hl] at hm; cases hm
    | some v => rw [hl] at hm; exact hm
  exact ⟨⟨m, spec, status⟩, Descriptor.ofJson?_obj_eq_some_iff.2
    ⟨Record.exists_ofMembers? hu _, hmetadata, hspec, hstatus⟩⟩

/-- The status of an object that was let in can be set to any status. -/
theorem Admitted.satisfies_mergePatch {j : Json} (h : Admitted j) (s : Status) :
    Satisfies Definition.schema (mergePatch j (ApiServer.statusPatch s)) := by
  have hform := h.form
  simp only [Definition.schema, Definition.satisfies_titled, Definition.satisfies_described,
    Definition.satisfies_requiring, List.forall_mem_cons] at hform
  obtain ⟨members, rfl, ⟨hspec, -⟩, hspecs, -⟩ := hform
  have hu := h.unrepeated
  -- A schema goes by every member of a name, so that there must not be two.
  have hone : ∀ name, (valuesOf name
      (membersOf ((lastMember "status" members).getD .null))).length ≤ 1 := by
    intro name
    cases hl : lastMember "status" members with
    | none => exact Nat.zero_le 1
    | some v =>
      have hv := hu.value (mem_valuesOf_of_lastMember hl)
      cases v with
      | obj ms => exact hv.distinct.1 name
      | _ => exact Nat.zero_le 1
  have hne : "spec" ≠ "status" := by decide
  rw [mergePatch_statusPatch]
  refine Descriptor.satisfies_obj ?_ ?_ fun v hv => ?_
  · rw [Has, lastMember_setMember_of_ne hne]
    exact hspec
  · rw [valuesOf_setMember_of_ne hne]
    exact hspecs
  · rw [valuesOf_setMember_self (hu.distinct.1 "status"), List.mem_singleton] at hv
    subst hv
    exact Status.satisfies_obj (valuesOf_setMember_self (hone "conditions"))

theorem exists_items? {s : ApiServer} {ns : String}
    (h : ∀ j ∈ ((s.clusters.find? ns).getD []).values, Admitted j) :
    ∃ ds, ApiServer.items? (s.listObject ns) = some ds := by
  obtain ⟨ds, hds, -⟩ := exists_listOf? fun j hj => Descriptor.exists_ofJson? (h j hj)
  exact ⟨ds, hds⟩

def publishedSchema : Option Json := do
  let versions ← ((← Definition.definition.field? "spec").field? "versions").bind asArray?
  (← (← versions.head?).field? "schema").field? "openAPIV3Schema"

/-- The published schema and the codec agree. Whatever is written fits, a status that is set in an
object let in included. What is let in is read, on its own, in a list and by the watch. -/
theorem schema_agrees : publishedSchema = some Definition.schema ∧
    (∀ d : Descriptor, Satisfies Definition.schema d.toJson) ∧
    (∀ j, Admitted j → ∀ s, Satisfies Definition.schema (mergePatch j (ApiServer.statusPatch s))) ∧
    (∀ j, Admitted j → ∃ d,
      (∀ v text, ApiServer.decode v Descriptor.ofJson? (.ok ⟨text, some j⟩) = .ok d) ∧
      ∀ event, WatchEvent.aboutObject event j =
        if WatchEvent.isVersioned d then event d else .failed true) ∧
    ∀ (s : ApiServer) ns, (∀ j ∈ ((s.clusters.find? ns).getD []).values, Admitted j) →
      ∃ ds, ApiServer.items? (s.listObject ns) = some ds := by
  refine ⟨rfl, Descriptor.satisfies_toJson, fun _ => Admitted.satisfies_mergePatch, fun j hj => ?_,
    fun _ _ => exists_items?⟩
  obtain ⟨d, hd⟩ := Descriptor.exists_ofJson? hj
  refine ⟨d, fun v text => ?_, fun event => by rw [WatchEvent.aboutObject, hd]⟩
  simp only [ApiServer.decode, Option.bind_some, hd]

def westObject : Json :=
  .obj [("apiVersion", .str apiVersion), ("kind", .str clusterKind),
    ("metadata", .obj [("name", .str "west"), ("generation", .int 1)]),
    ("spec", .obj [("apiEndpoint", .str "https://west:6443"), ("region", .str "w"),
      ("secretRef", .obj [("name", .str "west-sa")])]),
    ("status", .obj [
      ("conditions", .arr [.obj [("status", .str "True"), ("type", .str "Ready")]])])]

theorem admitted_westObject : Admitted westObject where
  unrepeated := rfl
  version := rfl
  kind := rfl
  metadata := ⟨_, rfl⟩
  form := by
    simp [westObject, Definition.schema, Definition.spec, Definition.secretRef, Definition.status,
      Definition.condition, Has, lastMember, valuesOf, Verdict.name]

theorem schema_agrees_westObject : Admitted westObject ∧
    ∃ d, ∀ v text, ApiServer.decode v Descriptor.ofJson? (.ok ⟨text, some westObject⟩) = .ok d := by
  obtain ⟨d, hd, -⟩ := schema_agrees.2.2.2.1 westObject admitted_westObject
  exact ⟨admitted_westObject, d, hd⟩

end ClusterFleet
