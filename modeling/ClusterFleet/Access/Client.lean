import ClusterFleet.Access.Certificate
import ClusterFleet.Access.Endpoint
import ClusterFleet.Access.RestConfig
import ClusterFleet.Access.TrustBundle
import ClusterFleet.Settings

namespace ClusterFleet

/-- What a kubeconfig says of its one cluster and its one user. -/
structure Kubeconfig where
  server : String
  skipsVerification : Bool
  authorityData : Option String
  token : String
  deriving DecidableEq

structure Client where
  kubeconfig : Kubeconfig
  connectTimeout : Span
  readTimeout : Span
  deriving DecidableEq

/-- The last two kinds come from the client library, and keep what it was given. -/
inductive ClientBuildError where
  | invalidConfig (detail : String)
  /-- The server or the certificate authority could not be read. -/
  | kubeconfig {server : String} {authority : Option String}
  /-- A certificate authority is not a certificate. -/
  | client {authority : Option String}
  deriving DecidableEq

namespace ClientBuildError

def isForeign : ClientBuildError → Bool
  | .invalidConfig _ => false
  | _ => true

def text (library : ClientBuildError → String) : ClientBuildError → String
  | .invalidConfig detail => "invalid rest config: " ++ detail
  | e@.kubeconfig => "kubeconfig error: " ++ library e
  | e@.client => "kube client error: " ++ library e

/-- The text of an error in which the library has no part. -/
def message? (e : ClientBuildError) : Option String :=
  if e.isForeign then none else some (e.text fun _ => "")

end ClientBuildError

/-- Building ends with a client, with an error, or not at all. -/
inductive BuildOutcome where
  | built (c : Client)
  | refused (e : ClientBuildError)
  | crashed
  deriving DecidableEq

namespace Client

def kubeconfig? (options : ClientOptions) (config : RestConfig) :
    Except ClientBuildError Kubeconfig :=
  if config.host = "" then .error (.invalidConfig "empty API endpoint")
  else if !Endpoint.hasScheme config.host then
    .error (.invalidConfig
      ("API endpoint must start with http:// or https://: " ++ config.host))
  else if config.bearerToken = "" then .error (.invalidConfig "empty bearer token")
  else
    let skips := options.insecureOverride.getD config.insecure
    .ok {
      server := config.host
      skipsVerification := skips
      authorityData := if skips then none else config.caData
      token := config.bearerToken }

/-- A header value has no control characters but the tab. -/
def isHeaderChar (c : Char) : Bool := c = '\t' || (32 ≤ c.toNat && c.toNat ≠ 127)

def authorization (k : Kubeconfig) : String := "Bearer " ++ k.token

def authority? (k : Kubeconfig) : Option (List TrustBundle.Block) :=
  match k.authorityData with
  | none => some []
  | some ca => TrustBundle.ofBase64? ca

def acceptsBlock (b : TrustBundle.Block) : Bool :=
  b.label ≠ "CERTIFICATE" || Certificate.isRoot b.contents

/-- A token that is no header value ends the building without a result. -/
def ofKubeconfig (options : ClientOptions) (k : Kubeconfig) : BuildOutcome :=
  match Endpoint.ofText? k.server, authority? k with
  | some _, some blocks =>
    if !k.token.toList.all isHeaderChar then .crashed
    else if blocks.all acceptsBlock then
      .built ⟨k, options.connectTimeout, options.readTimeout⟩
    else .refused (@ClientBuildError.client k.authorityData)
  | _, _ => .refused (@ClientBuildError.kubeconfig k.server k.authorityData)

/-- A client is built from a kubeconfig with one cluster and one user, which comes from a
configuration and the options that hold for all clients. -/
def build (options : ClientOptions) (config : RestConfig) : BuildOutcome :=
  match kubeconfig? options config with
  | .error e => .refused e
  | .ok k => ofKubeconfig options k

end Client
end ClusterFleet
