import ClusterFleet.Condition.Basic
import ClusterFleet.Json.Basic

namespace ClusterFleet

/-- `carried` holds the members that are kept for other readers. -/
structure Metadata where
  name : Option String
  generateName : Option String
  inNamespace : Option String
  labels : Option (List (String × String))
  carried : List Json.Member

structure ClusterSpec where
  /-- The base URL of the remote API server. -/
  apiEndpoint : String
  /-- The certificates to trust: PEM text in base 64. -/
  caBundle : Option String
  /-- The secret, in the descriptor's namespace, that holds the bearer token. -/
  secretName : String
  /-- The validations to skip; `*` stands for all of them. -/
  disabledValidations : Option (List String)
  deriving DecidableEq

/-- Where a remote cluster answers, which secret opens it, and what is known of its health. -/
structure Descriptor where
  metadata : Metadata
  spec : ClusterSpec
  status : Option Status

namespace Descriptor

def namespaceLabel : String := "namespace"

def ownerLabel : String := "ownerClusterName"

/-- The name it has, or else the name it was to be generated from. -/
def name (d : Descriptor) : String :=
  (d.metadata.name <|> d.metadata.generateName).getD ""

def label? (d : Descriptor) (key : String) : Option String :=
  (d.metadata.labels.getD []).lookup key

def conditions (d : Descriptor) : List Condition :=
  match d.status with
  | some s => s.conditions
  | none => []

def skipsVerification (d : Descriptor) : Bool :=
  (d.spec.disabledValidations.getD []).contains "*"

/-- The certificates to trust, an empty text counting as none. -/
def trusted (d : Descriptor) : Option String :=
  d.spec.caBundle.filter (· ≠ "")

def owner (d : Descriptor) : String := (d.label? ownerLabel).getD ""

/-- The namespace the secret is looked up in. -/
def secretNamespace (d : Descriptor) : String := d.metadata.inNamespace.getD "default"

def withStatus (d : Descriptor) (s : Status) : Descriptor := { d with status := some s }

@[simp] theorem conditions_withStatus (d : Descriptor) (s : Status) :
    (d.withStatus s).conditions = s.conditions := rfl

end Descriptor
end ClusterFleet
