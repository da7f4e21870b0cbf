import ClusterFleet.Cluster.Codec

namespace ClusterFleet.Definition

def plural : String := "toolchainclusters"

def singular : String := "toolchaincluster"

def resourceName : String := plural ++ "." ++ apiGroup

def collectionPath (ns : String) : String :=
  "/apis/" ++ apiVersion ++ "/namespaces/" ++ ns ++ "/" ++ plural

def withMember (key : String) (value : Json) : Json → Json
  | .obj members => .obj (Json.setMember key value members)
  | j => j

def described (text : String) : Json → Json := withMember "description" (.str text)

def nullable : Json → Json := withMember "nullable" (.bool true)

def texts (l : List String) : Json := .arr (l.map .str)

def text : Json := .obj [("type", .str "string")]

def oneOf (names : List String) : Json :=
  .obj [("type", .str "string"), ("enum", texts names)]

def listOf (items : Json) : Json :=
  .obj [("type", .str "array"), ("items", items)]

def record (properties : List Json.Member) : Json :=
  .obj [("type", .str "object"), ("properties", .obj properties)]

def requiring (names : List String) : Json → Json := withMember "required" (texts names)

def secretRef : Json :=
  described "Secret (in the descriptor's namespace) holding the bearer token"
    (requiring ["name"] (record [("name", text)]))

def spec : Json :=
  requiring ["apiEndpoint", "secretRef"] <| record [
    ("apiEndpoint",
      described "Base URL of the remote API server, e.g. https://api.member-1:6443" text),
    ("caBundle",
      described "Base64 encoded PEM bundle used to verify the remote API server" (nullable text)),
    ("secretRef", secretRef),
    ("disabledTLSValidations",
      described "TLS validations to skip; \"*\" disables verification entirely"
        (nullable (listOf text)))]

def condition : Json :=
  requiring ["status", "type"] <| record [
    ("type", text),
    ("status", oneOf [Verdict.name .yes, Verdict.name .no, Verdict.name .unknown]),
    ("reason", nullable text),
    ("message", nullable text),
    ("lastTransitionTime",
      described "RFC3339; last time `status` changed for this type" (nullable text)),
    ("lastUpdatedTime",
      described "RFC3339; last probe that produced this condition" (nullable text))]

def status : Json :=
  nullable (record [("conditions", withMember "default" (.arr []) (listOf condition))])

def schema : Json :=
  withMember "title" (.str clusterKind) <|
    described "Auto-generated derived type for ToolchainClusterSpec via `CustomResource`" <|
      requiring ["spec"] (record [("spec", spec), ("status", status)])

def version : Json :=
  .obj [
    ("name", .str apiVersionName),
    ("served", .bool true),
    ("storage", .bool true),
    ("additionalPrinterColumns", .arr []),
    ("subresources", .obj [("status", .obj [])]),
    ("schema", .obj [("openAPIV3Schema", schema)])]

/-- The resource definition under which an API server takes descriptors, with the schema of their
JSON. -/
def definition : Json :=
  .obj [
    ("apiVersion", .str "apiextensions.k8s.io/v1"),
    ("kind", .str "CustomResourceDefinition"),
    ("metadata", .obj [("name", .str resourceName)]),
    ("spec", .obj [
      ("group", .str apiGroup),
      ("names", .obj [
        ("kind", .str clusterKind),
        ("plural", .str plural),
        ("singular", .str singular),
        ("shortNames", .arr []),
        ("categories", .arr [])]),
      ("scope", .str "Namespaced"),
      ("versions", .arr [version])])]

end ClusterFleet.Definition
