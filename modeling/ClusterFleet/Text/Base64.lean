namespace ClusterFleet.Text.Base64

def digit? (c : Char) : Option Nat :=
  if 'A' ≤ c ∧ c ≤ 'Z' then some (c.toNat - 'A'.toNat)
  else if 'a' ≤ c ∧ c ≤ 'z' then some (c.toNat - 'a'.toNat + 26)
  else if '0' ≤ c ∧ c ≤ '9' then some (c.toNat - '0'.toNat + 52)
  else if c = '+' then some 62
  else if c = '/' then some 63
  else none

def byte (n : Nat) : UInt8 := UInt8.ofNat (n % 256)

/-- Two digits hold a byte and four bits. -/
def one? (a b : Char) : Option (List UInt8) := do
  let a ← digit? a
  let b ← digit? b
  if b % 16 = 0 then some [byte (a * 4 + b / 16)] else none

def two? (a b c : Char) : Option (List UInt8) := do
  let a ← digit? a
  let b ← digit? b
  let c ← digit? c
  if c % 4 = 0 then some [byte (a * 4 + b / 16), byte (b * 16 + c / 4)] else none

def three? (a b c d : Char) : Option (List UInt8) := do
  let a ← digit? a
  let b ← digit? b
  let c ← digit? c
  let d ← digit? d
  return [byte (a * 4 + b / 16), byte (b * 16 + c / 4), byte (c * 64 + d)]

/-- Padding is required, and the bits that it leaves over are zero. -/
def decode? : List Char → Option (List UInt8)
  | [] => some []
  | [a, b, '=', '='] => one? a b
  | [a, b, c, '='] => two? a b c
  | a :: b :: c :: d :: rest => do return (← three? a b c d) ++ (← decode? rest)
  | _ => none

end ClusterFleet.Text.Base64
