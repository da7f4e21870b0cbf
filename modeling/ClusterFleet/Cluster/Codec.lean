import ClusterFleet.Cluster.Descriptor
import ClusterFleet.Condition.Codec
import ClusterFleet.Json.Check

namespace ClusterFleet

def apiGroup : String := "toolchain.dev.openshift.com"

def apiVersionName : String := "v1alpha1"

def apiVersion : String := apiGroup ++ "/" ++ apiVersionName

def clusterKind : String := "ToolchainCluster"

namespace Metadata
open Json

def ownerReference : Check :=
  Check.objectWith
    [("apiVersion", Check.text), ("blockOwnerDeletion", Check.flag), ("controller", Check.flag),
      ("kind", Check.text), ("name", Check.text), ("uid", Check.text)]
    ["apiVersion", "kind", "name", "uid"]

def managedFields : Check :=
  Check.object
    [("apiVersion", Check.text), ("fieldsType", Check.text), ("fieldsV1", Check.anything),
      ("manager", Check.text), ("operation", Check.text), ("subresource", Check.text),
      ("time", Check.time)]

def carriedFields : List (String × Check) :=
  [("annotations", Check.mapOf Check.text), ("creationTimestamp", Check.time),
    ("deletionGracePeriodSeconds", Check.integer), ("deletionTimestamp", Check.time),
    ("finalizers", Check.listOf Check.text), ("generation", Check.integer),
    ("managedFields", Check.listOf managedFields),
    ("ownerReferences", Check.listOf ownerReference), ("resourceVersion", Check.text),
    ("selfLink", Check.text), ("uid", Check.text)]

def usedFields : List (String × Check) :=
  [("name", Check.text), ("generateName", Check.text), ("namespace", Check.text),
    ("labels", Check.mapOf Check.text)]

def form : Check := Check.object (usedFields ++ carriedFields)

def textMember (m : Member) : Option (String × String) := do
  return (m.1, ← m.2.asString?)

/-- The metadata of an object has a fixed set of members; the ones no rule here looks at are checked
and carried along. -/
def ofJson? (j : Json) : Option Metadata := do
  let checked ← form j
  let members ← checked.asObject?
  let text (k : String) := (lastMember k members).bind asString?
  return {
    name := text "name"
    generateName := text "generateName"
    inNamespace := text "namespace"
    labels := do some ((← (← lastMember "labels" members).asObject?).filterMap textMember)
    carried := members.filter fun m => carriedFields.any (·.1 = m.1) }

def setText (key : String) (value : Option String) : List Member :=
  match value with
  | some s => [(key, .str s)]
  | none => []

/-- Unset members are left out. -/
def toJson (m : Metadata) : Json :=
  .obj (setText "name" m.name ++ setText "generateName" m.generateName ++
    setText "namespace" m.inNamespace ++
    (match m.labels with
      | some ls => [("labels", .obj (ls.map fun (k, v) => (k, .str v)))]
      | none => []) ++
    m.carried)

end Metadata

namespace ClusterSpec
open Json

def secretRefName? (j : Json) : Option String := do
  (← Record.ofJson? ["name"] j).required "name" asString?

def ofJson? (j : Json) : Option ClusterSpec := do
  let r ← Record.ofJson? ["apiEndpoint", "caBundle", "secretRef", "disabledTLSValidations"] j
  return {
    apiEndpoint := ← r.required "apiEndpoint" asString?
    caBundle := ← r.optional "caBundle" asString?
    secretName := ← r.required "secretRef" secretRefName?
    disabledValidations := ← r.optional "disabledTLSValidations" (listOf? asString?) }

/-- All four members, unset ones as `null`. -/
def toJson (s : ClusterSpec) : Json :=
  .obj [
    ("apiEndpoint", .str s.apiEndpoint),
    ("caBundle", .ofOption .str s.caBundle),
    ("secretRef", .obj [("name", .str s.secretName)]),
    ("disabledTLSValidations", .ofOption (fun l => .arr (l.map .str)) s.disabledValidations)]

end ClusterSpec

namespace Descriptor
open Json

def ofJson? (j : Json) : Option Descriptor := do
  let r ← Record.ofJson? ["metadata", "spec", "status"] j
  return {
    metadata := ← r.required "metadata" Metadata.ofJson?
    spec := ← r.required "spec" ClusterSpec.ofJson?
    status := ← r.optional "status" Status.ofJson? }

def toJson (d : Descriptor) : Json :=
  .obj ([
    ("apiVersion", .str apiVersion),
    ("kind", .str clusterKind),
    ("metadata", d.metadata.toJson),
    ("spec", d.spec.toJson)] ++
    match d.status with
      | some s => [("status", s.toJson)]
      | none => [])

end Descriptor
end ClusterFleet
