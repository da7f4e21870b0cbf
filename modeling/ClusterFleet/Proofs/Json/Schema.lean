import ClusterFleet.Cluster.Definition
import ClusterFleet.Proofs.Json.Members

namespace ClusterFleet.Json

/-- The values of a type, by the type's name. -/
def HasType (type : String) : Json → Prop
  | .bool _ => type = "boolean"
  | .int _ => type = "integer" ∨ type = "number"
  | .real _ => type = "number"
  | .str _ => type = "string"
  | .arr _ => type = "array"
  | .obj _ => type = "object"
  | _ => False

def itemsOf : Json → List Json
  | .arr items => items
  | _ => []

def Has (name : String) (members : List Member) : Prop := (lastMember name members).isSome

/-- The rules that do not lead into the value. -/
def ObeysFlat (j : Json) : String → Json → Prop
  | "type", .str type => HasType type j
  | "enum", .arr values => j ∈ values
  | "required", .arr names => ∀ members, j = .obj members → ∀ name, .str name ∈ names →
      Has name members
  | _, _ => True

mutual
def Satisfies : Json → Json → Prop
  | .obj rules, j => j = .null ∧ ("nullable", .bool true) ∈ rules ∨ Obeys rules j
  | _, _ => True

def Obeys : List Member → Json → Prop
  | [], _ => True
  | ("items", schema) :: rest, j => (∀ item ∈ itemsOf j, Satisfies schema item) ∧ Obeys rest j
  | ("properties", .obj properties) :: rest, j =>
    ObeysEach properties (membersOf j) ∧ Obeys rest j
  | (rule, value) :: rest, j => ObeysFlat j rule value ∧ Obeys rest j

def ObeysEach : List Member → List Member → Prop
  | [], _ => True
  | (name, schema) :: rest, members =>
    (∀ value ∈ valuesOf name members, Satisfies schema value) ∧ ObeysEach rest members
end

section
variable {key name : String} {value j : Json} {rules properties members : List Member}

/-- The rule says nothing, whatever it is set to. -/
def Silent (key : String) : Prop :=
  ∀ value rest j, Obeys ((key, value) :: rest) j ↔ Obeys rest j

theorem silent_of_not_mem (h : key ∉ ["items", "properties", "type", "enum", "required"]) :
    Silent key := by
  intro value rest j
  simp only [List.mem_cons, List.not_mem_nil, or_false, not_or] at h
  simp [Obeys, ObeysFlat, h]

theorem satisfies_obj : Satisfies (.obj rules) j ↔
    j = .null ∧ ("nullable", .bool true) ∈ rules ∨ Obeys rules j := Iff.rfl

theorem obeys_nil : Obeys [] j := trivial

theorem obeys_items : Obeys (("items", value) :: rules) j ↔
    (∀ item ∈ itemsOf j, Satisfies value item) ∧ Obeys rules j := Iff.rfl

theorem obeys_properties : Obeys (("properties", .obj properties) :: rules) j ↔
    ObeysEach properties (membersOf j) ∧ Obeys rules j := Iff.rfl

theorem obeys_type : Obeys (("type", .str name) :: rules) j ↔ HasType name j ∧ Obeys rules j :=
  Iff.rfl

theorem obeys_enum {values : List Json} :
    Obeys (("enum", .arr values) :: rules) j ↔ j ∈ values ∧ Obeys rules j := Iff.rfl

theorem obeys_required {names : List Json} : Obeys (("required", .arr names) :: rules) j ↔
    (∀ members, j = .obj members → ∀ name, .str name ∈ names → Has name members) ∧
      Obeys rules j := Iff.rfl

/-- What a rule asks does not depend on the rules that follow. -/
theorem exists_obeys_cons (rule : Member) (j : Json) :
    ∃ P : Prop, ∀ rest, Obeys (rule :: rest) j ↔ P ∧ Obeys rest j := by
  obtain ⟨k, v⟩ := rule
  by_cases hi : k = "items"
  · subst hi
    exact ⟨_, fun _ => obeys_items⟩
  · by_cases hp : ∃ properties, k = "properties" ∧ v = .obj properties
    · obtain ⟨properties, rfl, rfl⟩ := hp
      exact ⟨_, fun _ => obeys_properties⟩
    · refine ⟨ObeysFlat j k v, fun rest => ?_⟩
      rw [Obeys]
      · exact hi
      · exact fun properties hk hv => hp ⟨properties, hk, hv⟩

theorem obeys_setMember (h : Silent key) : Obeys (setMember key value rules) j ↔ Obeys rules j := by
  induction rules with
  | nil => exact h value [] j
  | cons m rest ih =>
    obtain ⟨k, v⟩ := m
    rw [setMember]
    split
    · next hk =>
      subst hk
      rw [h, h]
    · obtain ⟨P, hP⟩ := exists_obeys_cons (k, v) j
      rw [hP, hP, ih]

theorem mem_setMember_of_ne {m : Member} (h : m.1 ≠ key) :
    m ∈ setMember key value members ↔ m ∈ members := by
  induction members with
  | nil => simp [setMember, Prod.ext_iff, h]
  | cons m' rest ih =>
    obtain ⟨k, v⟩ := m'
    rw [setMember]
    split
    · next hk =>
      subst hk
      simp [Prod.ext_iff, h]
    · simp [ih]

theorem mem_setMember_self : (key, value) ∈ setMember key value members := by
  induction members with
  | nil => simp [setMember]
  | cons m rest ih =>
    rw [setMember]
    split
    · next hk => simp [hk]
    · exact List.mem_cons_of_mem _ ih

theorem obeysEach_iff : ObeysEach properties members ↔
    ∀ p ∈ properties, ∀ value ∈ valuesOf p.1 members, Satisfies p.2 value := by
  induction properties with
  | nil => simp [ObeysEach]
  | cons p rest ih => simp [ObeysEach, ih]

end
end ClusterFleet.Json

namespace ClusterFleet.Definition
open Json

variable {schema j : Json} {names : List String} {properties : List Member} {key : String}

theorem satisfies_withMember {value : Json} (h : Silent key) (hn : key ≠ "nullable") :
    Satisfies (withMember key value schema) j ↔ Satisfies schema j := by
  cases schema with
  | obj rules =>
    have hmem : ("nullable", Json.bool true) ∈ setMember key value rules ↔
        ("nullable", Json.bool true) ∈ rules := mem_setMember_of_ne (Ne.symm hn)
    simp only [withMember, satisfies_obj, obeys_setMember h, hmem]
  | _ => rfl

@[simp] theorem satisfies_described {text : String} :
    Satisfies (described text schema) j ↔ Satisfies schema j :=
  satisfies_withMember (silent_of_not_mem (by decide)) (by decide)

@[simp] theorem satisfies_titled {value : Json} :
    Satisfies (withMember "title" value schema) j ↔ Satisfies schema j :=
  satisfies_withMember (silent_of_not_mem (by decide)) (by decide)

@[simp] theorem satisfies_defaulted {value : Json} :
    Satisfies (withMember "default" value schema) j ↔ Satisfies schema j :=
  satisfies_withMember (silent_of_not_mem (by decide)) (by decide)

@[simp] theorem satisfies_nullable :
    Satisfies (nullable schema) j ↔ j = .null ∨ Satisfies schema j := by
  cases schema with
  | obj rules =>
    have hsilent : Silent "nullable" := silent_of_not_mem (by decide)
    have hmem : ("nullable", Json.bool true) ∈ setMember "nullable" (.bool true) rules :=
      mem_setMember_self
    simp only [nullable, withMember, satisfies_obj, obeys_setMember hsilent, hmem, and_true]
    constructor
    · rintro (h | h)
      · exact .inl h
      · exact .inr (.inr h)
    · rintro (h | ⟨h, -⟩ | h)
      · exact .inl h
      · exact .inl h
      · exact .inr h
  | _ => exact (or_iff_right_of_imp fun _ => trivial).symm

@[simp] theorem satisfies_text : Satisfies text j ↔ ∃ s, j = .str s := by
  cases j <;> simp [text, satisfies_obj, obeys_type, obeys_nil, HasType]

@[simp] theorem satisfies_oneOf : Satisfies (oneOf names) j ↔ ∃ s ∈ names, j = .str s := by
  cases j <;> simp [oneOf, texts, satisfies_obj, obeys_type, obeys_enum, obeys_nil, HasType]

@[simp] theorem satisfies_listOf : Satisfies (listOf schema) j ↔
    ∃ items, j = .arr items ∧ ∀ item ∈ items, Satisfies schema item := by
  cases j <;> simp [listOf, satisfies_obj, obeys_type, obeys_items, obeys_nil, HasType, itemsOf]

@[simp] theorem satisfies_record : Satisfies (record properties) j ↔
    ∃ members, j = .obj members ∧
      ∀ p ∈ properties, ∀ value ∈ valuesOf p.1 members, Satisfies p.2 value := by
  cases j <;> simp [record, satisfies_obj, obeys_type, obeys_properties, obeys_nil, HasType,
    membersOf, obeysEach_iff]

@[simp] theorem satisfies_requiring : Satisfies (requiring names (record properties)) j ↔
    ∃ members, j = .obj members ∧ (∀ name ∈ names, Has name members) ∧
      ∀ p ∈ properties, ∀ value ∈ valuesOf p.1 members, Satisfies p.2 value := by
  cases j <;> simp [requiring, record, withMember, setMember, texts, satisfies_obj, obeys_type,
    obeys_properties, obeys_required, obeys_nil, HasType, membersOf, obeysEach_iff, and_comm]

end ClusterFleet.Definition
