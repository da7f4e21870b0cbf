import ClusterFleet.Json.Basic

namespace ClusterFleet.Json

def listOf? (decode : Json → Option α) : Json → Option (List α)
  | .arr items => items.mapM decode
  | _ => none

/-- A record is an object, in which unknown members are ignored and known ones must not be repeated,
or an array of its fields in order. -/
structure Record where
  fields : List Member

namespace Record

def ofMembers? (names : List String) (members : List Member) : Option Record :=
  if names.all fun n => (valuesOf n members).length ≤ 1 then some ⟨members⟩ else none

/-- The first `needed` fields must be there, the others may be left out from some point on. -/
def ofItems? (needed : Nat) (names : List String) (items : List Json) : Option Record :=
  if needed ≤ items.length ∧ items.length ≤ names.length then some ⟨names.zip items⟩ else none

def ofJsonFrom? (needed : Nat) (names : List String) : Json → Option Record
  | .obj members => ofMembers? names members
  | .arr items => ofItems? needed names items
  | _ => none

/-- An array holds all fields. -/
def ofJson? (names : List String) : Json → Option Record := ofJsonFrom? names.length names

def get? (r : Record) (name : String) : Option Json := lastMember name r.fields

def required (r : Record) (name : String) (decode : Json → Option α) : Option α := do
  decode (← r.get? name)

def optional (r : Record) (name : String) (decode : Json → Option α) : Option (Option α) :=
  match r.get? name with
  | none => some none
  | some .null => some none
  | some j => (decode j).map some

def withDefault (r : Record) (name : String) (default : α) (decode : Json → Option α) : Option α :=
  match r.get? name with
  | none => some default
  | some j => decode j

end Record
end ClusterFleet.Json
