import ClusterFleet.Program
import ClusterFleet.Text.Blank

namespace ClusterFleet

inductive CredentialProblem where
  | noSecretRef
  | noSecret (ns name : String)
  | noEntry (ns name key : String)
  deriving DecidableEq

inductive RegistrationError where
  | credentials (cluster : String) (cause : CredentialProblem)
  | client (cluster : String) (cause : ClientBuildError)
  | store (cause : StoreError)
  deriving DecidableEq

namespace CredentialProblem

def message : CredentialProblem → String
  | .noSecretRef => "descriptor has no secretRef"
  | .noSecret ns name => "secret " ++ ns ++ "/" ++ name ++ " not found"
  | .noEntry ns name key => "secret " ++ ns ++ "/" ++ name ++ " has no '" ++ key ++ "' entry"

end CredentialProblem

/-- The client library's accounts of its own errors. -/
structure Wording where
  store : StoreError → String
  client : ClientBuildError → String

namespace RegistrationError

def isForeign : RegistrationError → Bool
  | .credentials _ _ => false
  | .client _ cause => cause.isForeign
  | .store cause => cause.isForeign

def text (w : Wording) : RegistrationError → String
  | .credentials cluster cause =>
    "cannot resolve credentials for cluster " ++ cluster ++ ": " ++ cause.message
  | .client cluster cause =>
    "cannot build client for cluster " ++ cluster ++ ": " ++ cause.text w.client
  | .store cause => "store error: " ++ cause.text w.store

/-- The text of an error in which the library has no part. -/
def message? (e : RegistrationError) : Option String :=
  if e.isForeign then none else some (e.text ⟨fun _ => "", fun _ => ""⟩)

end RegistrationError

namespace Registration

/-- The token under a key, without the white space around it; a blank one is none. -/
def token? (key : String) (data : SecretData) : Option String :=
  ((data.find? key).map Text.trim).filter (· ≠ "")

def restConfig (d : Descriptor) (token : String) : RestConfig :=
  ⟨d.spec.apiEndpoint, d.skipsVerification, d.trusted, token⟩

def fromSecret (settings : RegistrationSettings) (d : Descriptor) (data : Option SecretData) :
    Except RegistrationError RestConfig :=
  match data with
  | none => .error (.credentials d.name (.noSecret d.secretNamespace d.spec.secretName))
  | some data =>
    match token? settings.tokenKey data with
    | none =>
      .error (.credentials d.name
        (.noEntry d.secretNamespace d.spec.secretName settings.tokenKey))
    | some token => .ok (restConfig d token)

def resolve (settings : RegistrationSettings) (d : Descriptor) :
    Program (Except RegistrationError RestConfig) :=
  if d.spec.secretName = "" then return .error (.credentials d.name .noSecretRef)
  else do
    match ← Program.act (.readSecret d.secretNamespace d.spec.secretName) with
    | .error e => return .error (.store e)
    | .ok data => return fromSecret settings d data

end Registration
end ClusterFleet
