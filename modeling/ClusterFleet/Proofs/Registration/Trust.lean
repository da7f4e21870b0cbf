import ClusterFleet.Proofs.Registration.Provenance

namespace ClusterFleet

namespace Client

variable {options : ClientOptions} {config : RestConfig} {c : Client}

theorem kubeconfig?_eq_ok {k : Kubeconfig} (h : kubeconfig? options config = .ok k) :
    Endpoint.hasScheme config.host ∧ k = {
      server := config.host
      skipsVerification := options.insecureOverride.getD config.insecure
      authorityData :=
        if options.insecureOverride.getD config.insecure then none else config.caData
      token := config.bearerToken } := by
  unfold kubeconfig? at h
  split at h
  · cases h
  · split at h
    · cases h
    · next hs =>
      split at h
      · cases h
      · cases h
        exact ⟨by simpa using hs, rfl⟩

theorem ofKubeconfig_eq_built {k : Kubeconfig} (h : ofKubeconfig options k = .built c) :
    c.kubeconfig = k := by
  unfold ofKubeconfig at h
  split at h
  · split at h
    · cases h
    · split at h
      · cases h
        rfl
      · cases h
  · cases h

theorem kubeconfig?_of_built (h : build options config = .built c) :
    kubeconfig? options config = .ok c.kubeconfig := by
  unfold build at h
  cases hk : kubeconfig? options config with
  | error e =>
    rw [hk] at h
    cases h
  | ok k =>
    rw [hk] at h
    rw [ofKubeconfig_eq_built h]

end Client

namespace Registration

/-- The descriptors that a task is still to register, and the one that it has in hand. -/
structure Hand where
  ahead : List Descriptor := []
  current? : Option Descriptor := none

/-- A list that is read is what comes next. To look up an entry is to take up the next of them. -/
def Hand.after (h : Hand) : (a : Action) → a.Reply → Hand
  | .listClusters, .ok ds => { ahead := ds }
  | .lookUp _, _ => { ahead := h.ahead.tail, current? := h.ahead.head? }
  | _, _ => h

def Call.hand : Call → Hand
  | .register d => { ahead := [d] }
  | _ => {}

def hand (i : Nat) : List (Event Call) → Hand
  | [] => {}
  | .began j k :: log => if j = i then k.hand else hand i log
  | .acted j a r :: log => if j = i then (hand i log).after a r else hand i log
  | _ :: log => hand i log

/-- The descriptor that was applied last under a name: the task that has put in a connection there
latest of all had it in hand. -/
def lastApplied? (name : String) : List (Event Call) → Option Descriptor
  | [] => none
  | .acted i (.insert c) _ :: log =>
    if c.name = name then (hand i log).current? else lastApplied? name log
  | _ :: log => lastApplied? name log

theorem hand_of_ne {i : Nat} {e : Event Call} (h : e.task ≠ i) (log : List (Event Call)) :
    hand i (e :: log) = hand i log := by
  cases e with
  | began j k => exact if_neg h
  | acted j a r => exact if_neg h
  | _ => rfl

theorem lastApplied?_of_not_touches {name : String} {e : Event Call} (h : e.touches name = false)
    (log : List (Event Call)) : lastApplied? name (e :: log) = lastApplied? name log := by
  cases e with
  | acted i a r =>
    cases a with
    | insert c => exact if_neg (of_decide_eq_false h)
    | _ => rfl
  | _ => rfl

/-- What a registration puts in for a descriptor. -/
structure Installed (settings : RegistrationSettings) (options : ClientOptions) (d : Descriptor)
    (c : Connection) : Prop where
  describes : Describes settings d c
  built : Client.build options c.restConfig = .built c.client

/-- The cache holds such connections only, and the factory builds clients by the options. -/
def Granted (settings : RegistrationSettings) (options : ClientOptions) (a : Action) (r : a.Reply) :
    Prop :=
  match a, r with
  | .lookUp name, some c => ∃ d, d.name = name ∧ Installed settings options d c
  | .buildClient config, r => r = Client.build options config
  | .refreshHook, some h => h = .reload settings
  | _, _ => True

/-- Whatever the program puts in is for the descriptor in hand, and it ends as `post` says. -/
def Applies {ρ : Type} (settings : RegistrationSettings) (options : ClientOptions)
    (post : Hand → ρ → Prop) : Hand → Program ρ → Prop
  | h, .done v => post h v
  | _, .crash => True
  | h, .call a next =>
    (∀ c, a = .insert c → ∃ d, h.current? = some d ∧ Installed settings options d c) ∧
      ∀ r, Granted settings options a r → Applies settings options post (h.after a r) (next r)

section
variable {ρ σ : Type} {settings : RegistrationSettings} {options : ClientOptions}
  {d : Descriptor} {c : Connection} {h : Hand}

theorem Applies.call {post : Hand → ρ → Prop} {a : Action} {next : a.Reply → Program ρ}
    (ha : a.alters = false) (hn : ∀ r, Granted settings options a r →
      Applies settings options post (h.after a r) (next r)) :
    Applies settings options post h (.call a next) := by
  refine ⟨?_, hn⟩
  rintro c rfl
  cases ha

theorem Applies.bind {mid : Hand → σ → Prop} {post : Hand → ρ → Prop} {p : Program σ}
    {f : σ → Program ρ} (hp : Applies settings options mid h p)
    (hf : ∀ h' v, mid h' v → Applies settings options post h' (f v)) :
    Applies settings options post h (p >>= f) := by
  induction p generalizing h with
  | done v => exact hf h v hp
  | crash => trivial
  | call a next ih => exact ⟨hp.1, fun r hr => ih r (hp.2 r hr)⟩

theorem Applies.ends {post : Hand → ρ → Prop} {p : Program ρ}
    (hp : Applies settings options post h p) :
    Applies settings options (fun _ (_ : Unit) => True) h (p >>= fun _ => pure ()) :=
  hp.bind fun _ _ _ => trivial

theorem applies_connect (hd : h.current? = some d) :
    Applies settings options (fun h' _ => h' = h) h (connect settings d) := by
  by_cases hs : d.spec.secretName = ""
  · simp only [connect, resolve, hs, if_true, pure_bind]
    exact rfl
  · simp only [connect, resolve, hs, if_false, Program.act_bind]
    refine .call rfl fun data _ => ?_
    cases data with
    | error e => exact rfl
    | ok data =>
      cases hf : fromSecret settings d data with
      | error e =>
        simp only [Program.bind, pure, hf]
        exact rfl
      | ok config =>
        obtain ⟨token, rfl, -, -⟩ := fromSecret_spec hf
        simp only [Program.bind, pure, hf]
        refine .call rfl fun outcome houtcome => ?_
        cases outcome with
        | crashed => trivial
        | refused e => exact rfl
        | built client =>
          refine ⟨?_, fun _ _ => rfl⟩
          rintro _ ⟨⟩
          exact ⟨d, hd, describes_connection hs token client, houtcome.symm⟩

/-- To register the next descriptor takes it in hand, whether its connection is kept or not. -/
theorem applies_register (d : Descriptor) {ds : List Descriptor} (hh : h.ahead = d :: ds) :
    Applies settings options (fun h' _ => h' = ⟨ds, some d⟩) h (register settings d) := by
  have hafter (r : Option Connection) : h.after (.lookUp d.name) r = ⟨ds, some d⟩ := by
    simp [Hand.after, hh]
  refine .call rfl fun found hfound => ?_
  rw [hafter]
  cases found with
  | none => exact applies_connect rfl
  | some c =>
    obtain ⟨d', hn, hi⟩ := hfound
    simp only [Program.bind]
    split
    · next ha =>
      refine ⟨?_, fun _ _ => rfl⟩
      rintro _ ⟨⟩
      exact ⟨d, rfl, hi.describes.of_agrees (hi.describes.name.trans hn) ha, hi.built⟩
    · exact applies_connect rfl

theorem applies_registerAll {ds : List Descriptor} (hh : h.ahead = ds) :
    Applies settings options (fun _ _ => True) h (registerAll settings ds) := by
  induction ds generalizing h with
  | nil => trivial
  | cons d ds ih =>
    refine (applies_register d hh).bind fun h' _ hh' => ?_
    exact (ih (congrArg Hand.ahead hh')).bind fun _ _ _ => trivial

theorem applies_refresh : Applies settings options (fun _ _ => True) h (refresh settings) := by
  refine .call rfl fun r _ => ?_
  cases r with
  | error e => trivial
  | ok ds => exact applies_registerAll rfl

theorem applies_reload :
    Applies settings options (fun _ _ => True) h (RefreshHook.run (.reload settings)) := by
  refine .call rfl fun _ _ => .call rfl fun held _ => ?_
  cases held with
  | false => trivial
  | true => exact applies_refresh.ends

theorem applies_refreshSince (seen : UInt64) :
    Applies settings options (fun _ _ => True) h (Cache.refreshSince RefreshHook.run seen) := by
  have hcount (h : Hand) :
      Applies settings options (fun _ _ => True) h (Program.act .countRefresh) :=
    .call rfl fun _ _ => trivial
  refine .call rfl fun count _ => ?_
  by_cases hc : count = seen
  · simp only [Program.bind, hc, if_true]
    refine .call rfl fun hook hhook => ?_
    cases hook with
    | none => exact hcount _
    | some hook =>
      obtain rfl : hook = .reload settings := hhook
      exact applies_reload.bind fun h' _ _ => hcount h'
  · simp only [Program.bind, hc, if_false]
    trivial

theorem applies_refreshBy :
    Applies settings options (fun _ _ => True) h (Cache.refreshBy RefreshHook.run) := by
  refine .call rfl fun seen _ => .call rfl fun _ _ => ?_
  exact (applies_refreshSince seen).bind fun _ _ _ => .call rfl fun _ _ => trivial

theorem applies_get (name : String) (mayRefresh : Bool) :
    Applies settings options (fun _ _ => True) h (Cache.get name mayRefresh) := by
  refine .call rfl fun found _ => ?_
  cases found with
  | some c => trivial
  | none =>
    cases mayRefresh with
    | false => trivial
    | true => exact applies_refreshBy.bind fun _ _ _ => .call rfl fun _ _ => trivial

theorem applies_list (filters : List ConnectionFilter) :
    Applies settings options (fun _ _ => True) h (Cache.list filters) := by
  refine .call rfl fun cs _ => ?_
  cases cs with
  | nil => exact applies_refreshBy.bind fun _ _ _ => .call rfl fun _ _ => trivial
  | cons c cs => exact .call rfl fun _ _ => trivial

theorem applies_program (k : Call) :
    Applies settings options (fun _ _ => True) k.hand (k.program settings) := by
  cases k with
  | register d => exact (applies_register d rfl).ends
  | unregister name => exact ⟨nofun, fun _ _ => trivial⟩
  | refresh => exact applies_refresh.ends
  | get name mayRefresh => exact (applies_get name mayRefresh).ends
  | list filters => exact (applies_list filters).ends

end

def Event.IsGenuine (options : ClientOptions) : Event Call → Prop
  | .acted _ (.buildClient config) r => r = Client.build options config
  | _ => True

/-- What the tasks keep up between them: an entry is for the descriptor that was applied last under
its name. -/
structure Held (settings : RegistrationSettings) (options : ClientOptions)
    (log : List (Event Call)) (s : Crew Call Unit) : Prop where
  applied : ∀ name c, s.world.connections.find? name = some c →
    ∃ d, lastApplied? name log = some d ∧ d.name = name ∧ Installed settings options d c
  hook : ∀ h, s.world.hook = some h → h = .reload settings
  tasks : ∀ i t, s.tasks i = some t →
    Applies settings options (fun _ _ => True) (hand i log) t.rest

section
variable {settings : RegistrationSettings} {options : ClientOptions} {w : World}
  {s s' : Crew Call Unit} {e : Event Call} {log : List (Event Call)}

theorem held_idle (hempty : w.connections = [])
    (hhook : ∀ h, w.hook = some h → h = .reload settings) :
    Held settings options [] (.idle w) := by
  refine ⟨fun name c hc => ?_, hhook, nofun⟩
  have hnone : w.connections.find? name = some c := hc
  rw [hempty] at hnone
  cases hnone

theorem Held.granted (h : Held settings options log s) {i : Nat} {a : Action} {r : a.Reply}
    {w : World} (hw : s.world.Answers i a r w)
    (hr : Event.IsGenuine options (.acted i a r)) : Granted settings options a r := by
  cases a with
  | lookUp name =>
    cases r with
    | none => trivial
    | some c =>
      obtain ⟨d, -, hd, hi⟩ := h.applied name c hw.of_lookUp.symm
      exact ⟨d, hd, hi⟩
  | buildClient config => exact hr
  | refreshHook =>
    cases r with
    | none => trivial
    | some hook => exact h.hook hook hw.of_refreshHook.symm
  | _ => trivial

theorem Held.applied_step (h : Held settings options log s)
    (hs : Crew.Step (Call.program settings) s e s') {name : String} {c : Connection}
    (hc : s'.world.connections.find? name = some c) :
    ∃ d, lastApplied? name (e :: log) = some d ∧ d.name = name ∧
      Installed settings options d c := by
  rw [Crew.find?_step hs] at hc
  -- Either this step puts the entry there, or it leaves the name alone and the entry was there.
  by_cases ht : e.touches name
  · cases hs with
    | @acts i k a next r w hi hw =>
      have hleft : a.left? = some c := (if_pos ht).symm.trans hc
      cases a with
      | insert c' =>
        obtain rfl : c' = c := Option.some.inj hleft
        have hname : c'.name = name := of_decide_eq_true ht
        obtain ⟨d, hd, hinstalled⟩ := (h.tasks i _ hi).1 c' rfl
        exact ⟨d, (if_pos hname).trans hd, hinstalled.describes.name.symm.trans hname, hinstalled⟩
      | _ => cases hleft
    | _ => cases ht
  · have ht : e.touches name = false := by simpa using ht
    rw [lastApplied?_of_not_touches ht]
    refine h.applied name c ?_
    rw [← hc]
    cases e with
    | acted i a r =>
      have ha : a.touches name = false := ht
      simp [ha]
    | _ => rfl

theorem Held.applies_step (h : Held settings options log s)
    (hs : Crew.Step (Call.program settings) s e s') (he : Event.IsGenuine options e) {i : Nat}
    {t : Task Call Unit} (ht : s'.tasks i = some t) :
    Applies settings options (fun _ _ => True) (hand i (e :: log)) t.rest := by
  cases hs.moved ht with
  | begun k _ => simpa [hand] using applies_program k
  | acted hi hw => simpa [hand] using (h.tasks _ _ hi).2 _ (h.granted hw he)
  | waited hi => exact h.tasks _ _ hi
  | dropped _ => trivial
  | beside hne hi =>
    rw [hand_of_ne hne.symm]
    exact h.tasks i t hi

theorem Held.step (h : Held settings options log s)
    (hs : Crew.Step (Call.program settings) s e s') (he : Event.IsGenuine options e) :
    Held settings options (e :: log) s' :=
  ⟨fun _ _ => h.applied_step hs, fun hook hh => h.hook hook (hs.hook ▸ hh),
    fun _ _ => h.applies_step hs he⟩

theorem held_of_run (hempty : w.connections = [])
    (hhook : ∀ h, w.hook = some h → h = .reload settings)
    (h : Crew.Run (Call.program settings) (.idle w) log s)
    (hlog : ∀ e ∈ log, Event.IsGenuine options e) : Held settings options log s := by
  induction h with
  | here => exact held_idle hempty hhook
  | step _ hs ih =>
    obtain ⟨he, hlog⟩ := List.forall_mem_cons.1 hlog
    exact (ih hlog).step hs he

end

/-- How a client is to trust a server: by the options, and where they leave it open by the
descriptor. -/
structure Secured (options : ClientOptions) (d : Descriptor) (k : Kubeconfig) : Prop where
  server : k.server = d.spec.apiEndpoint
  scheme : k.server.startsWith "http://" ∨ k.server.startsWith "https://"
  skips : k.skipsVerification ↔ options.insecureOverride = some true ∨
    options.insecureOverride = none ∧ "*" ∈ d.spec.disabledValidations.getD []
  authority : ∀ ca, k.authorityData = some ca ↔
    k.skipsVerification = false ∧ ca ≠ "" ∧ d.spec.caBundle = some ca
  exclusive : ¬(k.skipsVerification ∧ k.authorityData.isSome)
  forced : options.insecureOverride = some false → k.skipsVerification = false

section
variable {settings : RegistrationSettings} {options : ClientOptions} {d : Descriptor}
  {c : Connection}

theorem Installed.secured (h : Installed settings options d c) :
    Secured options d c.client.kubeconfig := by
  obtain ⟨hscheme, hk⟩ := Client.kubeconfig?_eq_ok (Client.kubeconfig?_of_built h.built)
  have hskips : c.client.kubeconfig.skipsVerification =
      options.insecureOverride.getD c.restConfig.insecure := by rw [hk]
  have hca : c.client.kubeconfig.authorityData =
      if c.client.kubeconfig.skipsVerification then none
      else d.spec.caBundle.filter (· ≠ "") := by rw [hk, ← h.describes.caData]
  refine ⟨?_, ?_, ?_, ?_, ?_, ?_⟩
  · rw [hk]
    exact h.describes.host
  · rw [hk]
    simpa [Endpoint.hasScheme] using hscheme
  · rw [hskips, ← h.describes.insecure]
    cases options.insecureOverride <;> simp
  · intro ca
    rw [hca]
    cases c.client.kubeconfig.skipsVerification <;> simp [Option.filter_eq_some_iff, and_comm]
  · rw [hca]
    cases c.client.kubeconfig.skipsVerification <;> simp
  · intro ho
    rw [hskips, ho]
    rfl

end

/--
Each entry of a cache that was empty when the first task began has the client that the options and
the descriptor ask for that was last applied under its name.
-/
theorem secured_of_run {settings : RegistrationSettings} {options : ClientOptions} {w : World}
    {log : List (Event Call)} {s : Crew Call Unit} (hempty : w.connections = [])
    (hhook : ∀ h, w.hook = some h → h = .reload settings)
    (h : Crew.Run (Call.program settings) (.idle w) log s)
    (hlog : ∀ e ∈ log, Event.IsGenuine options e) {name : String} {c : Connection}
    (hc : s.world.connections.find? name = some c) :
    ∃ d, lastApplied? name log = some d ∧ d.name = name ∧
      Secured options d c.client.kubeconfig := by
  obtain ⟨d, hd, hname, hi⟩ := (held_of_run hempty hhook h hlog).applied name c hc
  exact ⟨d, hd, hname, hi.secured⟩

def lax : Descriptor :=
  { newcomer with spec := { newcomer.spec with disabledValidations := some ["*"] } }

def insistent : ClientOptions := { insecureOverride := some false }

def verifyingClient : Client where
  kubeconfig := ⟨"https://west.example", false, none, "secret"⟩
  connectTimeout := insistent.connectTimeout
  readTimeout := insistent.readTimeout

theorem build_lax : Client.build insistent (restConfig lax "secret") = .built verifyingClient := by
  decide +kernel

theorem lax_run : ∃ log s, Crew.Run (Call.program {}) (.idle emptyWorld) log s ∧
    (∀ e ∈ log, Event.IsGenuine insistent e) ∧ lastApplied? "west" log = some lax ∧
      s.world.connections.find? "west" =
        some (connection {} lax (restConfig lax "secret") verifyingClient) := by
  have h₀ : Crew.Run (Call.program {}) (.idle emptyWorld) _ _ :=
    Crew.Run.here.step (.begins (i := 0) (.register lax) rfl)
  have h₁ := h₀.step (.acts (i := 0) (a := .lookUp "west") rfl (.cache rfl rfl))
  have h₂ := h₁.step (.acts (i := 0) (a := .readSecret "members" "west-token")
    (r := .ok (some [("token", " secret ")])) rfl (.outside nofun ⟨rfl, rfl, rfl, rfl⟩))
  have h₃ := h₂.step (.acts (i := 0) (a := .buildClient (restConfig lax "secret"))
    (r := .built verifyingClient) rfl (.outside nofun ⟨rfl, rfl, rfl, rfl⟩))
  have h₄ := h₃.step (.acts (i := 0) rfl (.cache rfl rfl))
  refine ⟨_, _, h₄, ?_, rfl, rfl⟩
  simp [Event.IsGenuine, build_lax]

theorem secured_lax : ∃ log s, Crew.Run (Call.program {}) (.idle emptyWorld) log s ∧
    (∀ e ∈ log, Event.IsGenuine insistent e) ∧ ∃ c, s.world.connections.find? "west" = some c ∧
      lastApplied? "west" log = some lax ∧ Secured insistent lax c.client.kubeconfig := by
  obtain ⟨log, s, h, hlog, hlast, hc⟩ := lax_run
  have hhook : ∀ hook, emptyWorld.hook = some hook → hook = .reload {} := by
    intro hook hh
    simp [emptyWorld] at hh
  obtain ⟨d, hd, -, hsecured⟩ := secured_of_run rfl hhook h hlog hc
  obtain rfl : lax = d := Option.some.inj (hlast.symm.trans hd)
  exact ⟨log, s, h, hlog, _, hc, hlast, hsecured⟩

end Registration
end ClusterFleet
