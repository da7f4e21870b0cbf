import ClusterFleet.Access.Endpoint
import ClusterFleet.Cluster.Definition
import ClusterFleet.Http.Answer

namespace ClusterFleet

inductive Verb where
  | get
  | list
  | patch
  | secret
  deriving DecidableEq

def Verb.ofName? : String → Option Verb
  | "get" => some .get
  | "list" => some .list
  | "patch" => some .patch
  | "secret" => some .secret
  | _ => none

/-- A request finds its resource by method and path; namespaces and names are single segments of the
path, and nothing is escaped in them. -/
inductive Resource where
  | clusters (ns : String)
  | cluster (ns name : String)
  | clusterStatus (ns name : String)
  | secret (ns name : String)
  deriving DecidableEq

namespace Resource

def path : Resource → String
  | .clusters ns => Definition.collectionPath ns
  | .cluster ns name => Definition.collectionPath ns ++ "/" ++ name
  | .clusterStatus ns name => Definition.collectionPath ns ++ "/" ++ name ++ "/status"
  | .secret ns name => "/api/v1/namespaces/" ++ ns ++ "/secrets/" ++ name

def ofSegments? : List String → Option Resource
  | ["", "api", "v1", "namespaces", ns, "secrets", name] => some (.secret ns name)
  | "" :: "apis" :: group :: version :: "namespaces" :: ns :: plural :: rest =>
    if group ≠ apiGroup ∨ version ≠ apiVersionName ∨ plural ≠ Definition.plural then none
    else match rest with
      | [] => some (.clusters ns)
      | [name] => some (.cluster ns name)
      | [name, "status"] => some (.clusterStatus ns name)
      | _ => none
  | _ => none

def ofPath? (path : String) : Option Resource :=
  ofSegments? ((path.toList.splitOn '/').map String.ofList)

def verb : Resource → Verb
  | .clusters _ => .list
  | .cluster _ _ => .get
  | .clusterStatus _ _ => .patch
  | .secret _ _ => .secret

def method (r : Resource) : String := if r.verb = .patch then "PATCH" else "GET"

/-- The target of a request. Those for lists and patches have a query, which is empty. -/
def target (r : Resource) : String :=
  match r.verb with
  | .list | .patch => r.path ++ "?"
  | .get | .secret => r.path

def pathOfTarget (target : String) : String :=
  String.ofList (target.toList.takeWhile fun c => c ≠ '?' && c ≠ '#')

/-- Whether a request with this target can be written. -/
def isSendable (target : String) : Bool :=
  let cs := target.toList.takeWhile (· ≠ '#')
  target.utf8ByteSize ≤ Endpoint.maxLength && (cs.takeWhile (· ≠ '?')).all Endpoint.isPathChar &&
    ((cs.dropWhile (· ≠ '?')).drop 1).all Endpoint.isQueryChar

/-- The request for a resource. A name or a namespace with a slash or a question mark in it makes it
one for something else. -/
def request? (r : Resource) (body : Option Json) : Option Http.Request :=
  if isSendable r.target then some ⟨r.method, pathOfTarget r.target, body⟩ else none

def ofRequest? (q : Http.Request) : Option Resource :=
  (ofPath? q.path).filter fun r => r.method = q.method

end Resource
end ClusterFleet
