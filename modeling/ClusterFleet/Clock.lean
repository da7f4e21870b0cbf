import ClusterFleet.Time.Instant

namespace ClusterFleet

/-- A clock that moves on by a microsecond with every reading. -/
structure Clock where
  start : Instant
  readings : Nat := 0

namespace Clock

def reading (c : Clock) (i : Nat) : Instant := c.start.addMicros i

def read (c : Clock) : Instant × Clock :=
  (c.reading (c.readings + 1), { c with readings := c.readings + 1 })

end Clock
end ClusterFleet
