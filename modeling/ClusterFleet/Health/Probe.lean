import ClusterFleet.Condition.Basic
import ClusterFleet.Http.Answer

namespace ClusterFleet.Health

def livenessPath : String := "/healthz"

def ready : Condition :=
  .observed .ready .yes "ClusterReady" "/healthz responded with ok"

def notReady : Condition :=
  .observed .ready .no "ClusterNotReady" "/healthz responded without ok"

def offline : Condition :=
  .observed .offline .yes "ClusterNotReachable" "cluster is not reachable"

def reachable : Condition :=
  .observed .offline .no "ClusterReachable" "cluster is reachable"

/-- `ok` in any case, and nothing else. -/
def saysOk (body : String) : Bool := body.toList.map Char.toLower = ['o', 'k']

/-- The conditions that a text shows; no text means that the cluster is offline. -/
def classify : Option String → List Condition
  | none => [offline]
  | some body => if saysOk body then [ready] else [notReady, reachable]

def observe (a : Http.Answer) : List Condition := classify a.text?

end ClusterFleet.Health
