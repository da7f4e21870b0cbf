import ClusterFleet.Access.Client
import ClusterFleet.Condition.Basic

namespace ClusterFleet

/-- An open way to a remote cluster, and the health it had when it was registered. -/
structure Connection where
  name : String
  /-- The namespace that the operator runs in over there. -/
  operatorNamespace : String
  /-- The cluster that registered it. -/
  owner : String
  apiEndpoint : String
  /-- The secret that the bearer token came from. -/
  secretName : String
  restConfig : RestConfig
  client : Client
  status : Status
  deriving DecidableEq

namespace Connection

def isReady (c : Connection) : Bool := c.status.isReady

end Connection

inductive ConnectionFilter where
  | ready
  | ownedBy (owner : String)

def ConnectionFilter.accepts : ConnectionFilter → Connection → Bool
  | .ready, c => c.isReady
  | .ownedBy o, c => c.owner = o

end ClusterFleet
