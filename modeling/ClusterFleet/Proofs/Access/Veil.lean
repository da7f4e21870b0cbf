import ClusterFleet.Connection.Description
import ClusterFleet.Proofs.Registration.Crash
import ClusterFleet.Proofs.Table

namespace ClusterFleet

def RestConfig.veiled (c : RestConfig) : RestConfig := { c with bearerToken := "" }

def Client.veiled (c : Client) : Client :=
  { c with kubeconfig := { c.kubeconfig with token := "" } }

def BuildOutcome.veiled : BuildOutcome → BuildOutcome
  | .built c => .built c.veiled
  | o => o

def Connection.veiled (c : Connection) : Connection :=
  { c with restConfig := c.restConfig.veiled, client := c.client.veiled }

section
variable (c : Connection)

@[simp] theorem Connection.name_veiled : c.veiled.name = c.name := rfl

@[simp] theorem Connection.restConfig_veiled : c.veiled.restConfig = c.restConfig.veiled := rfl

@[simp] theorem ConnectionFilter.accepts_veiled (f : ConnectionFilter) :
    f.accepts c.veiled = f.accepts c := by
  cases f <;> rfl

@[simp] theorem Registration.agrees_veiled (settings : RegistrationSettings) (d : Descriptor) :
    agrees settings c.veiled d = agrees settings c d := rfl

@[simp] theorem Description.ofRestConfig_veiled (config : RestConfig) :
    ofRestConfig config.veiled = ofRestConfig config := rfl

@[simp] theorem Description.ofConnection_veiled : ofConnection c.veiled = ofConnection c := rfl

theorem Connection.veiled_withStatus {c c' : Connection} (h : c.veiled = c'.veiled) (s : Status) :
    ({ c with status := s } : Connection).veiled = ({ c' with status := s } : Connection).veiled :=
  congrArg (fun c => { c with status := s }) h

end

/-- A token that a request can carry. -/
structure IsToken (s : String) : Prop where
  nonempty : s ≠ ""
  legal : Client.IsHeaderValue s

def Exchangeable (a b : String) : Prop := a = b ∨ IsToken a ∧ IsToken b

/-- Configurations with exchangeable tokens, and with nothing else different. -/
structure RestConfig.Akin (c c' : RestConfig) : Prop where
  veiled : c.veiled = c'.veiled
  tokens : Exchangeable c.bearerToken c'.bearerToken

theorem Client.veiled_ofKubeconfig (options : ClientOptions) (k : Kubeconfig) {a b : String}
    (ha : IsToken a) (hb : IsToken b) :
    (ofKubeconfig options { k with token := a }).veiled =
      (ofKubeconfig options { k with token := b }).veiled := by
  have hla : a.toList.all isHeaderChar := isHeaderValue_iff.1 ha.legal
  have hlb : b.toList.all isHeaderChar := isHeaderValue_iff.1 hb.legal
  have hauthority (token : String) : authority? { k with token } = authority? k := rfl
  simp only [ofKubeconfig, hauthority, hla, hlb, Bool.not_true, Bool.false_eq_true, if_false]
  cases Endpoint.ofText? k.server with
  | none => rfl
  | some e =>
    cases authority? k with
    | none => rfl
    | some blocks =>
      cases hall : blocks.all acceptsBlock <;> simp [hall, BuildOutcome.veiled, veiled]

theorem RestConfig.Akin.build {c c' : RestConfig} (h : c.Akin c') (options : ClientOptions) :
    (Client.build options c).veiled = (Client.build options c').veiled := by
  obtain ⟨hv, ht⟩ := h
  obtain ⟨host, insecure, caData, token⟩ := c
  obtain ⟨host', insecure', caData', token'⟩ := c'
  simp only [RestConfig.veiled, mk.injEq, and_true] at hv
  obtain ⟨rfl, rfl, rfl⟩ := hv
  rcases ht with ht | ⟨ht, ht'⟩
  · obtain rfl : token = token' := ht
    rfl
  · have hne : token ≠ "" := ht.nonempty
    have hne' : token' ≠ "" := ht'.nonempty
    simp only [Client.build, Client.kubeconfig?, hne, hne', if_false]
    by_cases hh : host = ""
    · simp only [hh, if_true]
    · by_cases hs : Endpoint.hasScheme host
      · simp only [hh, hs, if_false, Bool.not_true, Bool.false_eq_true]
        exact Client.veiled_ofKubeconfig options ⟨host, _, _, ""⟩ ht ht'
      · simp only [hh, hs, if_false, Bool.not_false, if_true]

/-- One key may hold exchangeable tokens, with any white space around them. -/
structure AkinData (key : String) (data data' : SecretData) : Prop where
  others : ∀ k ≠ key, data.find? k = data'.find? k
  entry : data.find? key = data'.find? key ∨ ∃ a b, data.find? key = some a ∧
    data'.find? key = some b ∧ IsToken (Text.trim a) ∧ IsToken (Text.trim b)

/-- What is read from secrets that may differ in their tokens. -/
inductive AkinReading (key : String) : Except StoreError (Option SecretData) →
    Except StoreError (Option SecretData) → Prop
  | same (r : Except StoreError (Option SecretData)) : AkinReading key r r
  | tokens {data data' : SecretData} (h : AkinData key data data') :
    AkinReading key (.ok (some data)) (.ok (some data'))

/-- Where a secret leads to: to the same error, or to configurations that are akin. -/
inductive AkinConfig :
    Except RegistrationError RestConfig → Except RegistrationError RestConfig → Prop
  | failed (e : RegistrationError) : AkinConfig (.error e) (.error e)
  | found {c c' : RestConfig} (h : c.Akin c') : AkinConfig (.ok c) (.ok c')

theorem AkinConfig.refl (r : Except RegistrationError RestConfig) : AkinConfig r r := by
  cases r with
  | error e => exact .failed e
  | ok c => exact .found ⟨rfl, .inl rfl⟩

namespace Registration

theorem token?_akin {key : String} {data data' : SecretData} (h : AkinData key data data')
    (key' : String) : token? key' data = token? key' data' ∨ ∃ a b, token? key' data = some a ∧
      token? key' data' = some b ∧ IsToken a ∧ IsToken b := by
  unfold token?
  by_cases hk : key' = key
  · subst hk
    rcases h.entry with he | ⟨a, b, ha, hb, hta, htb⟩
    · exact .inl (by rw [he])
    · refine .inr ⟨_, _, ?_, ?_, hta, htb⟩
      · simp [ha, Option.filter, hta.nonempty]
      · simp [hb, Option.filter, htb.nonempty]
  · exact .inl (by rw [h.others key' hk])

theorem fromSecret_akin {key : String} (settings : RegistrationSettings) (d : Descriptor)
    {data data' : SecretData} (h : AkinData key data data') :
    AkinConfig (fromSecret settings d (some data)) (fromSecret settings d (some data')) := by
  unfold fromSecret
  rcases token?_akin h settings.tokenKey with he | ⟨a, b, ha, hb, hta, htb⟩
  · simp only [he]
    exact .refl _
  · simp only [ha, hb]
    exact .found ⟨rfl, .inr ⟨hta, htb⟩⟩

theorem veiled_connection (settings : RegistrationSettings) (d : Descriptor)
    {config config' : RestConfig} {c c' : Client} (hconfig : config.veiled = config'.veiled)
    (hc : c.veiled = c'.veiled) :
    (connection settings d config c).veiled = (connection settings d config' c').veiled := by
  simp only [connection, Connection.veiled, hconfig, hc]

end Registration
end ClusterFleet
