import ClusterFleet.Double.Shortest
import ClusterFleet.Json.Basic

namespace ClusterFleet.Json

def hexDigit (n : Nat) : Char :=
  if n < 10 then Char.ofNat ('0'.toNat + n) else Char.ofNat ('a'.toNat + (n - 10))

def escapeChar (c : Char) : List Char :=
  match c with
  | '"' => ['\\', '"']
  | '\\' => ['\\', '\\']
  | '\n' => ['\\', 'n']
  | '\r' => ['\\', 'r']
  | '\t' => ['\\', 't']
  | '\x08' => ['\\', 'b']
  | '\x0c' => ['\\', 'f']
  | c =>
    if c.toNat < 0x20 then
      ['\\', 'u', '0', '0', hexDigit (c.toNat / 16), hexDigit (c.toNat % 16)]
    else [c]

def quote (s : String) : String :=
  "\"" ++ String.ofList (s.toList.flatMap escapeChar) ++ "\""

def exponentText (digits : List Char) (place : Int) : List Char :=
  let fraction := digits.drop 1
  digits.take 1 ++ (if fraction.isEmpty then [] else '.' :: fraction) ++
    'e' :: (toString (place - 1)).toList

/-- Digits whose point is `place` digits to the right of where they begin. It is written where it
stands if that takes sixteen digits at most, or four zeros after it. -/
def pointText (digits : List Char) (place : Int) : List Char :=
  let zeros (n : Int) := List.replicate n.toNat '0'
  if place ≤ -5 ∨ 16 < place then exponentText digits place
  else if place ≤ 0 then '0' :: '.' :: zeros (-place) ++ digits
  else if digits.length ≤ place then digits ++ zeros (place - digits.length) ++ ['.', '0']
  else digits.take place.toNat ++ '.' :: digits.drop place.toNat

def realText (d : Double) : String :=
  let s := d.magnitude.shortest
  let digits := (toString s.digits).toList
  let text := if s.digits = 0 then ['0', '.', '0'] else pointText digits (digits.length + s.exponent)
  String.ofList (if d.negative then '-' :: text else text)

def insertByName (m : Member) : List Member → List Member
  | [] => [m]
  | n :: rest => if m.1 < n.1 then m :: n :: rest else n :: insertByName m rest

mutual
/-- Members in order of their names, at every depth. -/
def sorted : Json → Json
  | .arr items => .arr (sortedItems items)
  | .obj members => .obj (sortedMembers members)
  | j => j

def sortedItems : List Json → List Json
  | [] => []
  | j :: rest => sorted j :: sortedItems rest

def sortedMembers : List Member → List Member
  | [] => []
  | (k, v) :: rest => insertByName (k, sorted v) (sortedMembers rest)
end

mutual
def write : Json → String
  | .null => "null"
  | .bool true => "true"
  | .bool false => "false"
  | .int n => toString n
  | .real d => realText d
  | .str s => quote s
  | .arr items => "[" ++ writeItems items ++ "]"
  | .obj members => "\x7b" ++ writeMembers members ++ "\x7d"
  | .unreadable => "null"

def writeItems : List Json → String
  | [] => ""
  | [j] => write j
  | j :: rest => write j ++ "," ++ writeItems rest

def writeMembers : List Member → String
  | [] => ""
  | [(k, v)] => quote k ++ ":" ++ write v
  | (k, v) :: rest => quote k ++ ":" ++ write v ++ "," ++ writeMembers rest
end

/-- The compact text of a value: no blanks, and members in order of their names. Numbers of double
precision take the fewest digits that read back. What is unreadable has no text of its own. -/
def compact (j : Json) : String := write (sorted j)

end ClusterFleet.Json
