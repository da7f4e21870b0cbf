import ClusterFleet.Double.Basic
import ClusterFleet.Json.Basic
import ClusterFleet.Text.Decimal

namespace ClusterFleet.Json.Number
open Text

structure Literal where
  negative : Bool
  whole : List Char
  /-- The digits after the point, if there is one. -/
  fraction : Option (List Char)
  exponent : Option (Bool × List Char)

def splitDigits (cs : List Char) : List Char × List Char :=
  (cs.takeWhile Char.isDigit, cs.dropWhile Char.isDigit)

def exponent? : List Char → Option (Option (Bool × List Char))
  | [] => some none
  | e :: cs =>
    if e = 'e' || e = 'E' then
      let (minus, ds) := match cs with
        | '-' :: ds => (true, ds)
        | '+' :: ds => (false, ds)
        | ds => (false, ds)
      if ds.isEmpty || !ds.all Char.isDigit then none else some (some (minus, ds))
    else none

/-- No leading zeros, a digit on each side of the point, digits after the exponent's sign. -/
def literal? (w : List Char) : Option Literal := do
  let (negative, cs) := match w with
    | '-' :: cs => (true, cs)
    | cs => (false, cs)
  let (whole, rest) := splitDigits cs
  if whole.isEmpty || (whole.length > 1 && whole.head? = some '0') then none
  else match rest with
    | '.' :: rest => do
      let (fraction, rest) := splitDigits rest
      if fraction.isEmpty then none
      else return ⟨negative, whole, some fraction, ← exponent? rest⟩
    | rest => return ⟨negative, whole, none, ← exponent? rest⟩

namespace Literal

/-- An integer of 64 bits, with or without a sign; minus zero is not one. -/
def integer? (l : Literal) : Option Int :=
  if l.fraction.isSome || l.exponent.isSome then none
  else
    let n := Decimal.value l.whole
    if l.negative then if n ≠ 0 ∧ n ≤ UInt64.size / 2 then some (-(n : Int)) else none
    else if n < UInt64.size then some n
    else none

/-- Puts digits after those of `n` while 64 bits can hold them, and gives the digits left over. -/
def append (n : Nat) : List Char → Nat × List Char
  | [] => (n, [])
  | c :: cs =>
    let next := n * 10 + Decimal.digitValue c
    if next < UInt64.size then append next cs else (n, c :: cs)

def writtenExponent (l : Literal) : Int :=
  match l.exponent with
  | none => 0
  | some (minus, ds) => if minus then -(Decimal.value ds : Int) else Decimal.value ds

/-- The digits that are kept, and the power of ten that goes with them. -/
def scientific (l : Literal) : Nat × Int :=
  let fraction := l.fraction.getD []
  let (n, dropped) := append 0 l.whole
  let (n, ignored) := append n fraction
  (n, l.writtenExponent + dropped.length - (fraction.length - ignored.length : Nat))

end Literal

/-- The greatest power of ten in double precision has this exponent. -/
def maxPower : Nat := 308

def tenTo? (e : Nat) : Option Magnitude := Magnitude.ofRatio? (Nat.pow 10 e) 1

def timesTenTo? (m : Magnitude) (e : Nat) : Option Magnitude :=
  if e ≤ maxPower then do m.product? (← tenTo? e)
  else if m.mantissa = 0 then some m
  else none

def overTenTo? (m : Magnitude) (e : Nat) : Option Magnitude :=
  if e ≤ maxPower then do m.quotient? (← tenTo? e)
  else if m.mantissa = 0 then some m
  else ((tenTo? maxPower).bind m.quotient?).bind fun m => overTenTo? m (e - maxPower)
termination_by e
decreasing_by simp only [maxPower] at *; omega

/--
The value in double precision, unless it is too large. It is read into 64 bits of digits and a power
of ten, and then multiplied or divided, so that the last bit of the result may differ from that of
the nearest number.
-/
def Literal.double? (l : Literal) : Option Double := do
  let (n, e) := l.scientific
  let m ← Magnitude.ofRatio? n 1
  let m ← if e < 0 then overTenTo? m e.natAbs else timesTenTo? m e.natAbs
  return ⟨l.negative, m⟩

end ClusterFleet.Json.Number

namespace ClusterFleet.Json

/-- The value that a word stands for; a number that is too large cannot be held. -/
def ofWord? (w : List Char) : Option Json :=
  if w = ['n', 'u', 'l', 'l'] then some .null
  else if w = ['t', 'r', 'u', 'e'] then some (.bool true)
  else if w = ['f', 'a', 'l', 's', 'e'] then some (.bool false)
  else do
    let l ← Number.literal? w
    match l.integer?, l.double? with
    | some n, _ => return .int n
    | none, some d => return .real d
    | none, none => return .unreadable

end ClusterFleet.Json
