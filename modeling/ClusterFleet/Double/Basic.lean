namespace ClusterFleet

/-- The number `mantissa * 2 ^ exponent`. The mantissa has 53 bits, fewer at the least exponent. -/
structure Magnitude where
  mantissa : Nat
  exponent : Int
  deriving DecidableEq

structure Double where
  negative : Bool
  magnitude : Magnitude
  deriving DecidableEq

namespace Magnitude

def minExponent : Int := -1074

def maxExponent : Int := 971

def zero : Magnitude := ⟨0, minExponent⟩

/-- The integer nearest to `num / den`, a half going to the even one. -/
def nearest (num den : Nat) : Nat :=
  let q := num / den
  let twice := 2 * (num % den)
  if twice < den ∨ (twice = den ∧ q % 2 = 0) then q else q + 1

/-- Numerator and denominator of `num / den * 2 ^ shift`. -/
def scaled (num den : Nat) (shift : Int) : Nat × Nat :=
  (num <<< shift.toNat, den <<< (-shift).toNat)

/-- The exponent that leaves a mantissa of 53 bits to `num / den`, if it is not too small. -/
def exponentOf (num den : Nat) : Int :=
  let guess : Int := num.log2 - den.log2
  let (n, d) := scaled num den (-guess)
  max ((if n < d then guess - 1 else guess) - 52) minExponent

/-- The number nearest to `num / den`; too large a quotient has none. -/
def ofRatio? (num den : Nat) : Option Magnitude :=
  if num = 0 then some zero
  else
    let e := exponentOf num den
    let (n, d) := scaled num den (-e)
    let m := nearest n d
    let r : Magnitude := if m = 1 <<< 53 then ⟨1 <<< 52, e + 1⟩ else ⟨m, e⟩
    if r.exponent ≤ maxExponent then some r else none

def product? (a b : Magnitude) : Option Magnitude :=
  let (n, d) := scaled (a.mantissa * b.mantissa) 1 (a.exponent + b.exponent)
  ofRatio? n d

def quotient? (a b : Magnitude) : Option Magnitude :=
  let (n, d) := scaled a.mantissa b.mantissa (a.exponent - b.exponent)
  ofRatio? n d

end Magnitude
end ClusterFleet
