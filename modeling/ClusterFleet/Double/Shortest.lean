import ClusterFleet.Double.Basic

namespace ClusterFleet

/-- The number `digits * 10 ^ exponent`. -/
structure DecimalNumber where
  digits : Nat
  exponent : Int
  deriving DecidableEq

def DecimalNumber.trimmed (d : DecimalNumber) : DecimalNumber :=
  if d.digits = 0 ∨ d.digits % 10 ≠ 0 then d else trimmed ⟨d.digits / 10, d.exponent + 1⟩
termination_by d.digits
decreasing_by omega

namespace Magnitude

def scaledByTen (num den : Nat) (shift : Int) : Nat × Nat :=
  (num * Nat.pow 10 shift.toNat, den * Nat.pow 10 (-shift).toNat)

def ratio (m : Magnitude) : Nat × Nat := scaled m.mantissa 1 m.exponent

def readsBack (m : Magnitude) (d : DecimalNumber) : Bool :=
  let (n, den) := scaledByTen d.digits 1 d.exponent
  ofRatio? n den = some m

/-- Every number but zero has digits before this place after the point. -/
def lastPlace : Nat := 340

/-- Where the first digit stands: it counts for `10 ^ (place - 1)`. -/
def firstPlace (m : Magnitude) : Int :=
  let (n, den) := m.ratio
  (toString (n * Nat.pow 10 lastPlace / den)).length - lastPlace

/-- The two numbers of so many digits around `m`, the nearer one first. -/
def neighbours (m : Magnitude) (count : Nat) : List DecimalNumber :=
  let exponent := m.firstPlace - count
  let (n, den) := m.ratio
  let (n, den) := scaledByTen n den (-exponent)
  let below := n / den
  let near := nearest n den
  [⟨near, exponent⟩, ⟨if near = below then below + 1 else below, exponent⟩]

/-- No number takes more digits than this. -/
def maxDigits : Nat := 17

/-- The fewest decimal digits that read back as a number, and of those digits the ones nearest to
it. -/
def shortest (m : Magnitude) : DecimalNumber :=
  let candidates := (List.range maxDigits).flatMap fun i => m.neighbours (i + 1)
  match candidates.find? m.readsBack with
  | some d => d.trimmed
  | none => ⟨0, 0⟩

end Magnitude
end ClusterFleet
