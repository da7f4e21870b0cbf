import ClusterFleet.Time.Calendar

namespace ClusterFleet

/-- A length of time in nanoseconds. -/
structure Span where
  nanos : Nat
  deriving DecidableEq, Repr

namespace Span

def perSecond : Nat := 1000000000

def ofSeconds (n : Nat) : Span := ⟨n * perSecond⟩

def ofMillis (n : Nat) : Span := ⟨n * 1000000⟩

def seconds (s : Span) : Nat := s.nanos / perSecond

def fraction (s : Span) : Nat := s.nanos % perSecond

def isZero (s : Span) : Bool := s.nanos = 0

def sub? (s t : Span) : Option Span :=
  if t.nanos ≤ s.nanos then some ⟨s.nanos - t.nanos⟩ else none

end Span

/-- Seconds since 1970 began, and nanoseconds on top. A leap second is the second `:59` of its
minute with a fraction of one or more seconds. -/
structure Instant where
  seconds : Int
  nanos : Nat
  deriving DecidableEq, Repr

namespace Instant

def perDay : Int := 86400

def day (t : Instant) : Int := t.seconds / perDay

def secondOfDay (t : Instant) : Int := t.seconds % perDay

def isLeap (t : Instant) : Bool := Span.perSecond ≤ t.nanos

def firstSecond : Int := Time.Date.toDays ⟨Time.Date.firstYear, 1, 1⟩ * perDay

def lastSecond : Int := Time.Date.toDays ⟨Time.Date.lastYear + 1, 1, 1⟩ * perDay - 1

/-- In range, and a leap second only at the end of a minute. -/
def isValid (t : Instant) : Bool :=
  firstSecond ≤ t.seconds && t.seconds ≤ lastSecond && t.nanos < 2 * Span.perSecond &&
    (!t.isLeap || t.seconds % 60 = 59)

def le (s t : Instant) : Bool :=
  s.seconds < t.seconds || (s.seconds = t.seconds && s.nanos ≤ t.nanos)

def max (s t : Instant) : Instant := if s.le t then t else s

def latest : List Instant → Option Instant
  | [] => none
  | t :: ts => some (ts.foldl max t)

/--
The leap second to be counted between two times of day: one that the earlier of them lies in is
over by the later one.
-/
def leapBetween (s t : Instant) : Int :=
  if s.secondOfDay > t.secondOfDay then if t.isLeap then 1 else 0
  else if s.secondOfDay < t.secondOfDay then if s.isLeap then -1 else 0
  else 0

/-- The nanoseconds from `t` to `s`, negative when `s` is earlier. -/
def since (s t : Instant) : Int :=
  (s.seconds - t.seconds + leapBetween s t) * Span.perSecond + (s.nanos - t.nanos)

def elapsed? (s t : Instant) : Option Span :=
  let n := since s t
  if 0 ≤ n then some ⟨n.toNat⟩ else none

def addMicros (t : Instant) (n : Nat) : Instant :=
  let total := t.nanos + n * 1000
  ⟨t.seconds + (total / Span.perSecond : Nat), total % Span.perSecond⟩

def addSeconds (t : Instant) (n : Int) : Instant := { t with seconds := t.seconds + n }

end Instant
end ClusterFleet
