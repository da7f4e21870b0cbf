import ClusterFleet.Text.Decimal
import ClusterFleet.Time.Instant

namespace ClusterFleet.Time
open Text

/-- A year of four digits; one beyond them has a sign. -/
def yearText (y : Int) : String :=
  if 0 ≤ y ∧ y ≤ 9999 then Decimal.padded 4 y.toNat
  else (if y < 0 then "-" else "+") ++ Decimal.padded 4 y.natAbs

/-- The fewest of 0, 3, 6 and 9 digits that say it exactly. -/
def fractionText (nanos : Nat) : String :=
  if nanos = 0 then ""
  else if nanos % 1000000 = 0 then "." ++ Decimal.padded 3 (nanos / 1000000)
  else if nanos % 1000 = 0 then "." ++ Decimal.padded 6 (nanos / 1000)
  else "." ++ Decimal.padded 9 nanos

def dateText (d : Date) : String :=
  yearText d.year ++ "-" ++ Decimal.padded 2 d.month ++ "-" ++ Decimal.padded 2 d.day

def leapSeconds (t : Instant) : Nat := if t.isLeap then 1 else 0

/-- The time of day in whole seconds; a leap second is second 60. -/
def clockText (t : Instant) : String :=
  let s := t.secondOfDay.toNat
  Decimal.padded 2 (s / 3600) ++ ":" ++ Decimal.padded 2 (s / 60 % 60) ++ ":" ++
    Decimal.padded 2 (s % 60 + leapSeconds t)

def dateTimeText (t : Instant) : String :=
  dateText (Date.ofDays t.day) ++ "T" ++ clockText t

/-- Written times are in UTC with offset `+00:00`. -/
def rfc3339 (t : Instant) : String :=
  dateTimeText t ++ fractionText (t.nanos - leapSeconds t * Span.perSecond) ++ "+00:00"

def wholeSeconds (t : Instant) : String := dateTimeText t ++ "Z"

def expect? (c : Char) : List Char → Option (List Char)
  | d :: cs => if c = d then some cs else none
  | [] => none

def date? (cs : List Char) : Option (Date × List Char) := do
  let (y, cs) ← Decimal.take? 4 cs
  let cs ← expect? '-' cs
  let (m, cs) ← Decimal.take? 2 cs
  let cs ← expect? '-' cs
  let (d, cs) ← Decimal.take? 2 cs
  let date : Date := ⟨y, m, d⟩
  if date.isValid then some (date, cs) else none

def separator? : List Char → Option (List Char)
  | c :: cs => if c = 'T' ∨ c = 't' ∨ c = ' ' then some cs else none
  | [] => none

/-- At least one digit after a point; those past the ninth are dropped. -/
def fraction? : List Char → Option (Nat × List Char)
  | '.' :: cs =>
    let ds := cs.takeWhile Char.isDigit
    if ds.isEmpty then none
    else
      let kept := ds.take 9
      some (Decimal.value kept * Nat.pow 10 (9 - kept.length), cs.dropWhile Char.isDigit)
  | cs => some (0, cs)

/-- Seconds of the day and nanoseconds. Second 60 is second 59 and a second more. -/
def timeOfDay? (h m s f : Nat) : Option (Nat × Nat) :=
  if h > 23 ∨ m > 59 ∨ s > 60 then none
  else if s = 60 then some (h * 3600 + m * 60 + 59, f + Span.perSecond)
  else some (h * 3600 + m * 60 + s, f)

def clock? (cs : List Char) : Option ((Nat × Nat) × List Char) := do
  let (h, cs) ← Decimal.take? 2 cs
  let cs ← expect? ':' cs
  let (m, cs) ← Decimal.take? 2 cs
  let cs ← expect? ':' cs
  let (s, cs) ← Decimal.take? 2 cs
  let (f, cs) ← fraction? cs
  return (← timeOfDay? h m s f, cs)

def isZulu (c : Char) : Bool := c = 'Z' || c = 'z'

/-- The sign of an offset may be a hyphen or a minus sign. -/
def sign? : List Char → Option (Int × List Char)
  | '+' :: cs => some (1, cs)
  | '-' :: cs => some (-1, cs)
  | '\u2212' :: cs => some (-1, cs)
  | _ => none

def offset? : List Char → Option (Int × List Char)
  | [] => none
  | c :: cs =>
    if isZulu c then some (0, cs)
    else do
      let (sign, cs) ← sign? (c :: cs)
      let (h, cs) ← Decimal.take? 2 cs
      let cs ← expect? ':' cs
      let (m, cs) ← Decimal.take? 2 cs
      if h > 23 ∨ m > 59 then none else some (sign * (h * 3600 + m * 60 : Nat), cs)

def instant (d : Date) (time : Nat × Nat) (offset : Int) : Instant :=
  ⟨d.toDays * Instant.perDay + time.1 - offset, time.2⟩

/-- Read times may have any offset, and may separate date and time by a blank. -/
def ofRfc3339Chars? (cs : List Char) : Option Instant := do
  let (date, cs) ← date? cs
  let cs ← separator? cs
  let (time, cs) ← clock? cs
  let (off, cs) ← offset? cs
  if cs.isEmpty then some (instant date time off) else none

def ofRfc3339? (s : String) : Option Instant := ofRfc3339Chars? s.toList

end ClusterFleet.Time
