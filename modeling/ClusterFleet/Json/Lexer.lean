import ClusterFleet.Json.Basic

namespace ClusterFleet.Json

/-- Strings are decoded here, and a raw control character in one is refused. A word is a run of
letters, digits and signs; `ofWord?` says which words are values. -/
inductive Token where
  | openArray
  | closeArray
  | openObject
  | closeObject
  | comma
  | colon
  /-- A string; one that holds a surrogate without its partner is no text. -/
  | text (s : Option String)
  | word (w : List Char)

namespace Token

/-- A byte-order mark is not blank. -/
def isBlank (c : Char) : Bool :=
  c = ' ' || c = '\t' || c = '\n' || c = '\r'

def punctuation? : Char → Option Token
  | '[' => some openArray
  | ']' => some closeArray
  | '\x7b' => some openObject
  | '\x7d' => some closeObject
  | ',' => some comma
  | ':' => some colon
  | _ => none

def isWordChar (c : Char) : Bool :=
  c.isAlphanum || c = '-' || c = '+' || c = '.'

def hexDigit? (c : Char) : Option Nat :=
  if '0' ≤ c ∧ c ≤ '9' then some (c.toNat - '0'.toNat)
  else if 'a' ≤ c ∧ c ≤ 'f' then some (c.toNat - 'a'.toNat + 10)
  else if 'A' ≤ c ∧ c ≤ 'F' then some (c.toNat - 'A'.toNat + 10)
  else none

def hexUnit? (a b c d : Char) : Option Nat := do
  let a ← hexDigit? a
  let b ← hexDigit? b
  let c ← hexDigit? c
  let d ← hexDigit? d
  return ((a * 16 + b) * 16 + c) * 16 + d

def isHighSurrogate (u : Nat) : Bool := 0xD800 ≤ u && u < 0xDC00

def isLowSurrogate (u : Nat) : Bool := 0xDC00 ≤ u && u < 0xE000

def joinSurrogates (hi lo : Nat) : Char :=
  Char.ofNat (0x10000 + (hi - 0xD800) * 0x400 + (lo - 0xDC00))

def escaped? : Char → Option Char
  | '"' => some '"'
  | '\\' => some '\\'
  | '/' => some '/'
  | 'b' => some '\x08'
  | 'f' => some '\x0c'
  | 'n' => some '\n'
  | 'r' => some '\r'
  | 't' => some '\t'
  | _ => none

/-- What the lexer is in the middle of. The characters read so far are held last first. -/
inductive Mode where
  | between
  | inWord (read : List Char)
  /-- Nothing is held of a string once a surrogate without its partner has been read. -/
  | inText (read : Option (List Char))

def Mode.flush (m : Mode) (rest : List Token) : List Token :=
  match m with
  | .inWord read => .word read.reverse :: rest
  | _ => rest

def scan : Mode → List Char → Option (List Token)
  | .inText _, [] => none
  | m, [] => some (m.flush [])
  | .inText read, '"' :: cs =>
    (scan .between cs).map (.text (read.map fun cs => String.ofList cs.reverse) :: ·)
  | .inText read, '\\' :: 'u' :: a :: b :: c :: d :: cs => do
    let u ← hexUnit? a b c d
    if isHighSurrogate u then
      match cs with
      | '\\' :: 'u' :: e :: f :: g :: h :: cs => do
        let v ← hexUnit? e f g h
        if isLowSurrogate v then scan (.inText (read.map (joinSurrogates u v :: ·))) cs
        else scan (.inText none) ('\\' :: 'u' :: e :: f :: g :: h :: cs)
      | cs => scan (.inText none) cs
    else if isLowSurrogate u then scan (.inText none) cs
    else scan (.inText (read.map (Char.ofNat u :: ·))) cs
  | .inText read, '\\' :: e :: cs => do
    let c ← escaped? e
    scan (.inText (read.map (c :: ·))) cs
  | .inText read, c :: cs =>
    if c = '\\' || c.toNat < 0x20 then none else scan (.inText (read.map (c :: ·))) cs
  | m, c :: cs =>
    if c = '"' then (scan (.inText (some [])) cs).map m.flush
    else if isBlank c then (scan .between cs).map m.flush
    else match punctuation? c with
      | some t => (scan .between cs).map fun ts => m.flush (t :: ts)
      | none =>
        if isWordChar c then
          match m with
          | .inWord read => scan (.inWord (c :: read)) cs
          | _ => scan (.inWord [c]) cs
        else none

def ofText? (s : String) : Option (List Token) := scan .between s.toList

end Token
end ClusterFleet.Json
