import ClusterFleet.Registration.Credentials

namespace ClusterFleet.Registration

def operatorNamespace (settings : RegistrationSettings) (d : Descriptor) : String :=
  (d.label? Descriptor.namespaceLabel).getD settings.defaultOperatorNamespace

/-- The open connection is the one that the descriptor asks for. -/
def agrees (settings : RegistrationSettings) (c : Connection) (d : Descriptor) : Bool :=
  c.apiEndpoint = d.spec.apiEndpoint && c.secretName = d.spec.secretName &&
    c.restConfig.insecure = d.skipsVerification && c.restConfig.caData = d.trusted &&
    c.operatorNamespace = operatorNamespace settings d && c.owner = d.owner

def connection (settings : RegistrationSettings) (d : Descriptor) (config : RestConfig)
    (client : Client) : Connection where
  name := d.name
  operatorNamespace := operatorNamespace settings d
  owner := d.owner
  apiEndpoint := d.spec.apiEndpoint
  secretName := d.spec.secretName
  restConfig := config
  client := client
  status := d.status.getD .empty

def connect (settings : RegistrationSettings) (d : Descriptor) :
    Program (Except RegistrationError Unit) := do
  match ← resolve settings d with
  | .error e => return .error e
  | .ok config =>
    match ← Program.act (.buildClient config) with
    | .crashed => .crash
    | .refused e => return .error (.client d.name e)
    | .built client => do
      Program.act (.insert (connection settings d config client))
      return .ok ()

/-- Registers a descriptor. On an error the cache is left as it was. -/
def register (settings : RegistrationSettings) (d : Descriptor) :
    Program (Except RegistrationError Unit) := do
  match ← Program.act (.lookUp d.name) with
  | some c =>
    if agrees settings c d then do
      Program.act (.insert { c with status := d.status.getD .empty })
      return .ok ()
    else connect settings d
  | none => connect settings d

def unregister (name : String) : Program Unit := Program.act (.erase name)

def registerAll (settings : RegistrationSettings) : List Descriptor → Program Nat
  | [] => return 0
  | d :: ds => do
    let r ← register settings d
    let n ← registerAll settings ds
    return if r.isOk then n + 1 else n

/-- Registers all that is stored; what cannot be listed counts for nothing. -/
def refresh (settings : RegistrationSettings) : Program Nat := do
  match ← Program.act .listClusters with
  | .error _ => return 0
  | .ok ds => registerAll settings ds

end ClusterFleet.Registration
