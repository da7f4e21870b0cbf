import ClusterFleet.Text.Decimal
import ClusterFleet.Time.Instant

namespace ClusterFleet

structure RegistrationSettings where
  /-- The key of the bearer token in a secret. -/
  tokenKey : String := "token"
  /-- For descriptors that do not name one. -/
  defaultOperatorNamespace : String := "toolchain-member-operator"
  deriving DecidableEq

structure ClientOptions where
  connectTimeout : Span := .ofSeconds 5
  readTimeout : Span := .ofSeconds 10
  /-- Takes the place of every descriptor's own choice about verification. -/
  insecureOverride : Option Bool := none
  deriving DecidableEq

structure Settings where
  watchNamespace : String
  healthCheckSeconds : Nat
  log : String
  registration : RegistrationSettings
  client : ClientOptions

structure SettingsError where
  name : String

namespace SettingsError

def message (e : SettingsError) : String :=
  "Failed to parse environment variable " ++ e.name

end SettingsError

namespace Settings

abbrev Environment := List (String × String)

def text (env : Environment) (name default : String) : String :=
  (env.lookup name).getD default

def seconds (env : Environment) (name : String) (default : Nat) : Except SettingsError Nat :=
  match env.lookup name with
  | none => .ok default
  | some s =>
    match Text.Decimal.word64? s with
    | some n => .ok n
    | none => .error ⟨name⟩

def flag (env : Environment) (name : String) : Except SettingsError (Option Bool) :=
  match env.lookup name with
  | none => .ok none
  | some s =>
    if s = "true" then .ok (some true)
    else if s = "false" then .ok (some false)
    else .error ⟨name⟩

/-- Each variable that is absent has a default; the first one that cannot be read, in the order
below, is the error. -/
def read (env : Environment) : Except SettingsError Settings := do
  let interval ← seconds env "TOOLCHAIN_HEALTH_CHECK_INTERVAL_SECS" 10
  let connect ← seconds env "TOOLCHAIN_CLIENT_CONNECT_TIMEOUT_SECS" 5
  let readTime ← seconds env "TOOLCHAIN_CLIENT_READ_TIMEOUT_SECS" 10
  let insecure ← flag env "TOOLCHAIN_CLIENT_INSECURE"
  return {
    watchNamespace := text env "TOOLCHAIN_WATCH_NAMESPACE" "toolchain-host-operator"
    healthCheckSeconds := interval
    log := text env "TOOLCHAIN_LOG" "info"
    registration := {
      tokenKey := text env "TOOLCHAIN_SECRET_TOKEN_KEY" ({} : RegistrationSettings).tokenKey
      defaultOperatorNamespace :=
        text env "TOOLCHAIN_DEFAULT_OPERATOR_NAMESPACE"
          ({} : RegistrationSettings).defaultOperatorNamespace }
    client := {
      connectTimeout := .ofSeconds connect
      readTimeout := .ofSeconds readTime
      insecureOverride := insecure } }

def healthCheckInterval (s : Settings) : Span := .ofSeconds (max s.healthCheckSeconds 1)

end Settings
end ClusterFleet
