import ClusterFleet.Double.Basic

namespace ClusterFleet

/--
Integers of up to 64 bits are numbers of their own; every other number has double precision. An
object is the list of its members as written, repeats included; of repeated members the last one
counts. JSON text may hold more than a value can: numbers beyond double precision, halves of
surrogate pairs, containers without end. What is written correctly and cannot be held is
`unreadable`. It may stand where nobody looks at it.
-/
inductive Json where
  | null
  | bool (b : Bool)
  | int (n : Int)
  /-- A number with a fraction or an exponent, or one too large for 64 bits. -/
  | real (d : Double)
  | str (s : String)
  | arr (items : List Json)
  | obj (members : List (String × Json))
  /-- Something that is not held. -/
  | unreadable
  deriving Inhabited, BEq

namespace Json

abbrev Member := String × Json

def lastMember (name : String) : List Member → Option Json
  | [] => none
  | (k, v) :: rest => lastMember name rest <|> if k = name then some v else none

def valuesOf (name : String) (members : List Member) : List Json :=
  (members.filter (·.1 = name)).map (·.2)

def field? (name : String) : Json → Option Json
  | .obj members => lastMember name members
  | _ => none

/-- The member called `name`, an absent one counting as `null`. -/
def field (name : String) (j : Json) : Json :=
  (j.field? name).getD .null

def isNull : Json → Bool
  | .null => true
  | _ => false

def asString? : Json → Option String
  | .str s => some s
  | _ => none

def asBool? : Json → Option Bool
  | .bool b => some b
  | _ => none

def asInt? : Json → Option Int
  | .int n => some n
  | _ => none

def asNatBelow? (bound : Nat) : Json → Option Nat
  | .int (.ofNat n) => if n < bound then some n else none
  | _ => none

def asArray? : Json → Option (List Json)
  | .arr items => some items
  | _ => none

def asObject? : Json → Option (List Member)
  | .obj members => some members
  | _ => none

def ofOption (encode : α → Json) : Option α → Json
  | none => .null
  | some a => encode a

/-- Sets a member: a member of that name is replaced where it stands, a new one goes to the end. -/
def setMember (name : String) (value : Json) : List Member → List Member
  | [] => [(name, value)]
  | (k, v) :: rest => if k = name then (k, value) :: rest else (k, v) :: setMember name value rest

def dropMember (name : String) (members : List Member) : List Member :=
  members.filter (·.1 ≠ name)

mutual
def isReadable : Json → Bool
  | .arr items => areReadable items
  | .obj members => membersReadable members
  | .unreadable => false
  | _ => true

def areReadable : List Json → Bool
  | [] => true
  | j :: rest => isReadable j && areReadable rest

def membersReadable : List Member → Bool
  | [] => true
  | (_, v) :: rest => isReadable v && membersReadable rest
end

mutual
/-- The same value with only the last of repeated members, at every depth. -/
def canonical : Json → Json
  | .arr items => .arr (canonicalItems items)
  | .obj members => .obj (canonicalMembers members)
  | j => j

def canonicalItems : List Json → List Json
  | [] => []
  | j :: rest => canonical j :: canonicalItems rest

def canonicalMembers : List Member → List Member
  | [] => []
  | (k, v) :: rest =>
    let rest' := canonicalMembers rest
    if rest'.any (·.1 = k) then rest' else (k, canonical v) :: rest'
end

end Json
end ClusterFleet
