import ClusterFleet.Condition.Basic
import ClusterFleet.Time.Rfc3339

namespace ClusterFleet

namespace Condition

def updatedAt? (c : Condition) : Option Instant := c.updated.bind Time.ofRfc3339?

def latestUpdate? (cs : List Condition) : Option Instant := Instant.latest (cs.filterMap updatedAt?)

end Condition

/-- The time left until `interval` has passed since the latest observation, unless a check is due. -/
def remaining? (cs : List Condition) (now : Instant) (interval : Span) : Option Span := do
  let latest ← Condition.latestUpdate? cs
  let elapsed ← now.elapsed? latest
  (interval.sub? elapsed).filter (!·.isZero)

end ClusterFleet
