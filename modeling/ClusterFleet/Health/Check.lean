import ClusterFleet.Health.Probe
import ClusterFleet.Program

namespace ClusterFleet.Health

def livenessRequest : Http.Request := ⟨"GET", livenessPath, none⟩

/-- What an action sends to a remote cluster, and through which client. -/
def sent? : Action → Option (Client × Http.Request)
  | .probe c => some (c, livenessRequest)
  | _ => none

def check (c : Client) : Program (List Condition) := do
  let answer ← Program.act (.probe c)
  return observe answer

end ClusterFleet.Health
