import ClusterFleet.Text.Blank
import ClusterFleet.Time.Rfc3339

namespace ClusterFleet.Time.Relaxed
open Text

def digits? (width : Nat) (cs : List Char) : Option (Nat × List Char) :=
  let ds := (cs.take width).takeWhile Char.isDigit
  if ds.isEmpty then none else some (Decimal.value ds, cs.drop ds.length)

def number? (cs : List Char) : Option (Nat × List Char) := digits? 2 (trimStartChars cs)

def year? (cs : List Char) : Option (Int × List Char) := do
  match trimStartChars cs with
  | '-' :: cs =>
    let (y, cs) ← digits? cs.length cs
    return (-(y : Int), cs)
  | '+' :: cs =>
    let (y, cs) ← digits? cs.length cs
    return (y, cs)
  | cs =>
    let (y, cs) ← digits? 4 cs
    return (y, cs)

def mark? (c : Char) (cs : List Char) : Option (List Char) := expect? c (trimStartChars cs)

def date? (cs : List Char) : Option (Date × List Char) := do
  let (y, cs) ← year? cs
  let cs ← mark? '-' cs
  let (m, cs) ← number? cs
  let cs ← mark? '-' cs
  let (d, cs) ← number? cs
  let date : Date := ⟨y, m, d⟩
  if date.isValid then some (date, cs) else none

def clock? (cs : List Char) : Option ((Nat × Nat) × List Char) := do
  let (h, cs) ← number? cs
  let cs ← mark? ':' cs
  let (m, cs) ← number? cs
  let cs ← mark? ':' cs
  let (s, cs) ← number? cs
  let (f, cs) ← fraction? cs
  return (← timeOfDay? h m s f, cs)

def isUtc (cs : List Char) : Bool := (cs.take 3).map Char.toUpper = ['U', 'T', 'C']

/-- Hours and minutes may have colons and white space between them. -/
def offset? (cs : List Char) : Option (Int × List Char) :=
  let cs := trimStartChars cs
  if isUtc cs then some (0, cs.drop 3)
  else if cs.head?.any isZulu then some (0, cs.drop 1)
  else do
    let (sign, cs) ← sign? cs
    let (h, cs) ← Decimal.take? 2 cs
    let (m, cs) ← Decimal.take? 2 (cs.dropWhile fun c => c = ':' || isBlank c)
    if h > 23 ∨ m > 59 then none else some (sign * (h * 3600 + m * 60 : Nat), cs)

/--
A relaxed form of RFC 3339, in which the times of an object's metadata are read. The parts may have
white space between them, numbers may be short, a year may have a sign and then any number of
digits, and the offset may go without its colon or be `UTC`.
-/
def parse? (s : String) : Option Instant := do
  let (date, cs) ← date? s.toList
  let cs ← separator? cs
  let (time, cs) ← clock? cs
  let (off, cs) ← offset? cs
  let t := instant date time off
  if (trimStartChars cs).isEmpty && Date.isInRange date && t.isValid then some t else none

end ClusterFleet.Time.Relaxed
