import ClusterFleet.Proofs.Crew

namespace ClusterFleet.Registration

/--
What a program does is `ok`, as long as the replies are as `rely` says. It may take for granted that
a task has `stood` wherever it comes by.
-/
def Upholds (stood : Program ρ → Prop) (rely : (a : Action) → a.Reply → Prop) (ok : Action → Prop) :
    Program ρ → Prop
  | .done _ => True
  | .crash => True
  | .call a next =>
    stood (.call a next) → ok a ∧ ∀ r, rely a r → Upholds stood rely ok (next r)

inductive Call where
  | register (d : Descriptor)
  | unregister (name : String)
  | refresh
  | get (name : String) (mayRefresh : Bool)
  | list (filters : List ConnectionFilter)

def Call.program (settings : RegistrationSettings) : Call → Program Unit
  | .register d => do
    let _ ← Registration.register settings d
    return ()
  | .unregister name => Registration.unregister name
  | .refresh => do
    let _ ← Registration.refresh settings
    return ()
  | .get name mayRefresh => do
    let _ ← Cache.get name mayRefresh
    return ()
  | .list filters => do
    let _ ← Cache.list filters
    return ()

/-- The connection, less its token and its client, is the one that a descriptor asks for. -/
structure Describes (settings : RegistrationSettings) (d : Descriptor) (c : Connection) : Prop where
  name : c.name = d.name
  apiEndpoint : c.apiEndpoint = d.spec.apiEndpoint
  host : c.restConfig.host = d.spec.apiEndpoint
  secretName : c.secretName = d.spec.secretName
  secretName_ne : c.secretName ≠ ""
  operatorNamespace : c.operatorNamespace =
    (d.label? Descriptor.namespaceLabel).getD settings.defaultOperatorNamespace
  owner : c.owner = (d.label? Descriptor.ownerLabel).getD ""
  insecure : c.restConfig.insecure ↔ "*" ∈ d.spec.disabledValidations.getD []
  caData : c.restConfig.caData = d.spec.caBundle.filter (· ≠ "")
  status : c.status = d.status.getD .empty

/-- In the course of a run to `s`, a task has come to `p`. -/
def Stood (settings : RegistrationSettings) (start s : Crew Call Unit) (log : List (Event Call))
    (p : Program Unit) : Prop :=
  ∃ s₁ earlier later i k, log = later ++ earlier ∧
    Crew.Run (Call.program settings) start earlier s₁ ∧
    Crew.Run (Call.program settings) s₁ later s ∧ s₁.tasks i = some ⟨k, p⟩

/-- In the course of a run to `s`, a task has come to register `d`, whatever it goes on with. -/
def Given (settings : RegistrationSettings) (start s : Crew Call Unit) (log : List (Event Call))
    (d : Descriptor) : Prop :=
  ∃ rest, Stood settings start s log (register settings d >>= rest)

/-- A connection that comes from one of the `given` descriptors and from what is in the log. -/
structure Coherent (settings : RegistrationSettings) (given : Descriptor → Prop)
    (log : List (Event Call)) (c : Connection) : Prop where
  described : ∃ d, given d ∧ Describes settings d c
  token_ne : c.restConfig.bearerToken ≠ ""
  trimmed : Text.IsTrimmed c.restConfig.bearerToken
  built : ∃ i, .acted i (.buildClient c.restConfig) (.built c.client) ∈ log

section
variable {settings : RegistrationSettings}

theorem describes_connection {d : Descriptor} (hs : d.spec.secretName ≠ "") (token : String)
    (client : Client) :
    Describes settings d (connection settings d (restConfig d token) client) := by
  refine ⟨rfl, rfl, rfl, rfl, hs, rfl, rfl, ?_, rfl, rfl⟩
  exact List.contains_iff_mem

/-- The attributes that are compared determine the others. -/
theorem Describes.of_agrees {d d' : Descriptor} {c : Connection} (h : Describes settings d' c)
    (hn : c.name = d.name) (ha : agrees settings c d) :
    Describes settings d { c with status := d.status.getD .empty } := by
  simp only [agrees, Bool.and_eq_true, decide_eq_true_eq] at ha
  obtain ⟨⟨⟨⟨⟨he, hs⟩, hi⟩, hc⟩, ho⟩, hw⟩ := ha
  refine ⟨hn, he, ?_, hs, h.secretName_ne, ho, hw, ?_, hc, rfl⟩
  · exact h.host.trans (h.apiEndpoint.symm.trans he)
  · rw [hi]
    exact List.contains_iff_mem

theorem token?_spec {key : String} {data : SecretData} {token : String}
    (h : token? key data = some token) : token ≠ "" ∧ Text.IsTrimmed token := by
  obtain ⟨ht, hne⟩ := Option.filter_eq_some_iff.1 h
  obtain ⟨text, _, rfl⟩ := Option.map_eq_some_iff.1 ht
  exact ⟨by simpa using hne, Text.isTrimmed_trim text⟩

theorem fromSecret_eq_ok_iff {d : Descriptor} {data : Option SecretData} {config : RestConfig} :
    fromSecret settings d data = .ok config ↔ ∃ table token, data = some table ∧
      token? settings.tokenKey table = some token ∧ config = restConfig d token := by
  cases data with
  | none => simp [fromSecret]
  | some table =>
    simp only [fromSecret]
    cases ht : token? settings.tokenKey table <;> simp [ht, eq_comm]

theorem fromSecret_spec {d : Descriptor} {data : Option SecretData} {config : RestConfig}
    (h : fromSecret settings d data = .ok config) :
    ∃ token, config = restConfig d token ∧ token ≠ "" ∧ Text.IsTrimmed token := by
  obtain ⟨table, token, -, ht, hconfig⟩ := fromSecret_eq_ok_iff.1 h
  exact ⟨token, hconfig, token?_spec ht⟩

/-- What each registration keeps up is kept up by all of them, even if one of them crashes. -/
theorem registerAll_keeps {σ : Type} {h : Handler σ} {P : σ → Prop} {ds : List Descriptor}
    (hone : ∀ d ∈ ds, ∀ s, P s → P ((register settings d).runBy h s).2) {s : σ} (hs : P s) :
    P ((registerAll settings ds).runBy h s).2 := by
  induction ds generalizing s with
  | nil => exact hs
  | cons d ds ih =>
    obtain ⟨hd, hds⟩ := List.forall_mem_cons.1 hone
    have hfirst := hd s hs
    simp only [registerAll, Program.runBy_bind]
    cases hr : (register settings d).runBy h s with
    | mk r s₁ =>
      rw [hr] at hfirst
      cases r with
      | none => exact hfirst
      | some r =>
        have hrest := ih hds hfirst
        cases hn : (registerAll settings ds).runBy h s₁ with
        | mk n s₂ =>
          rw [hn] at hrest
          cases n <;> simpa [hn] using hrest

end

/-- What is enough for the registration of a `given` descriptor to be `ok`. -/
structure Opens {ρ : Type} (settings : RegistrationSettings) (stood : Program ρ → Prop)
    (rely : (a : Action) → a.Reply → Prop) (ok : Action → Prop) (given : Descriptor → Prop) :
    Prop where
  other : ∀ a, a.alters = false → a ≠ .listClusters → ok a
  opened : ∀ d token client, given d → d.spec.secretName ≠ "" → token ≠ "" →
    Text.IsTrimmed token → rely (.buildClient (restConfig d token)) (.built client) →
    ok (.insert (connection settings d (restConfig d token) client))
  kept : ∀ d c, given d → rely (.lookUp d.name) (some c) → agrees settings c d →
    ok (.insert { c with status := d.status.getD .empty })

/--
What is enough for all calls to be `ok`, if the descriptors they are called with or find listed are
`known`, and `given` once they are registered.
-/
structure Allows {ρ : Type} (settings : RegistrationSettings) (stood : Program ρ → Prop)
    (rely : (a : Action) → a.Reply → Prop) (ok : Action → Prop) (known given : Descriptor → Prop) :
    Prop extends Opens settings stood rely ok given where
  lists : ok .listClusters
  listed : ∀ ds, rely .listClusters (.ok ds) → ∀ d ∈ ds, known d
  stands : ∀ d rest, known d → stood (register settings d >>= rest) → given d
  hook : ∀ h, rely .refreshHook (some h) → h = .reload settings

section
variable {ρ : Type} {settings : RegistrationSettings} {stood : Program ρ → Prop}
  {rely : (a : Action) → a.Reply → Prop} {ok : Action → Prop} {known given : Descriptor → Prop}
  {d : Descriptor}

theorem Opens.passes (h : Opens settings stood rely ok given) {a : Action}
    {next : a.Reply → Program ρ} (ha : a.alters = false) (hl : a ≠ .listClusters)
    (hn : ∀ r, rely a r → Upholds stood rely ok (next r)) :
    Upholds stood rely ok (.call a next) :=
  fun _ => ⟨h.other a ha hl, hn⟩

theorem Opens.connect (h : Opens settings stood rely ok given) (hd : given d)
    {k : _ → Program ρ} (hk : ∀ r, Upholds stood rely ok (k r)) :
    Upholds stood rely ok (connect settings d >>= k) := by
  by_cases hs : d.spec.secretName = ""
  · simpa [Registration.connect, resolve, hs] using hk _
  · simp only [Registration.connect, resolve, hs, if_false, bind_assoc, Program.act_bind,
      Program.call_bind]
    refine h.passes rfl nofun ?_
    intro r _
    cases r with
    | error e => simpa using hk _
    | ok data =>
      simp only [pure_bind]
      cases hf : fromSecret settings d data with
      | error e => simpa using hk _
      | ok config =>
        simp only [Program.call_bind]
        refine h.passes rfl nofun ?_
        intro r hr
        cases r with
        | crashed => trivial
        | refused e => simpa using hk _
        | built client =>
          obtain ⟨token, rfl, hne, ht⟩ := fromSecret_spec hf
          simp only [Program.call_bind]
          exact fun _ => ⟨h.opened d token client hd hs hne ht hr, fun _ _ => hk _⟩

theorem register_bind (settings : RegistrationSettings) (d : Descriptor) (k : _ → Program ρ) :
    ∃ next, register settings d >>= k = .call (.lookUp d.name) next ∧
      next none = connect settings d >>= k ∧
      ∀ c, next (some c) = if agrees settings c d then
          .call (.insert { c with status := d.status.getD .empty }) fun _ => k (.ok ())
        else connect settings d >>= k := by
  refine ⟨_, rfl, rfl, fun c => ?_⟩
  by_cases ha : agrees settings c d
  · simp only [Program.bind, ha, if_true]
    rfl
  · simp only [Program.bind, ha, Bool.false_eq_true, if_false]
    rfl

theorem Opens.register (h : Opens settings stood rely ok given) {k : _ → Program ρ}
    (hd : stood (register settings d >>= k) → given d) (hk : ∀ r, Upholds stood rely ok (k r)) :
    Upholds stood rely ok (register settings d >>= k) := by
  obtain ⟨next, hp, hnone, hsome⟩ := register_bind settings d k
  have hlooks : Action.lookUp d.name ≠ .listClusters := by
    intro hl
    cases hl
  -- A task may count as having stood here only as it acts, and so the descriptor is given by then.
  rw [hp] at hd ⊢
  refine fun hst => ⟨h.other _ rfl hlooks, fun r hr => ?_⟩
  have hgiven : given d := hd hst
  cases r with
  | none =>
    rw [hnone]
    exact h.connect hgiven hk
  | some c =>
    rw [hsome]
    by_cases ha : agrees settings c d
    · rw [if_pos ha]
      exact fun _ => ⟨h.kept d c hgiven hr ha, fun _ _ => hk _⟩
    · rw [if_neg ha]
      exact h.connect hgiven hk

namespace Allows

theorem passes (h : Allows settings stood rely ok known given) {a : Action}
    {next : a.Reply → Program ρ} (ha : a.alters = false)
    (hn : ∀ r, rely a r → Upholds stood rely ok (next r)) :
    Upholds stood rely ok (.call a next) := by
  by_cases hl : a = .listClusters
  · subst hl
    exact fun _ => ⟨h.lists, hn⟩
  · exact h.toOpens.passes ha hl hn

theorem register (h : Allows settings stood rely ok known given) (hd : known d)
    {k : _ → Program ρ} (hk : ∀ r, Upholds stood rely ok (k r)) :
    Upholds stood rely ok (register settings d >>= k) :=
  h.toOpens.register (h.stands d k hd) hk

theorem registerAll (h : Allows settings stood rely ok known given) {ds : List Descriptor}
    (hds : ∀ d ∈ ds, known d) {k : Nat → Program ρ} (hk : ∀ n, Upholds stood rely ok (k n)) :
    Upholds stood rely ok (registerAll settings ds >>= k) := by
  induction ds generalizing k with
  | nil => exact hk 0
  | cons d ds ih =>
    obtain ⟨hd, hds⟩ := List.forall_mem_cons.1 hds
    simp only [Registration.registerAll, bind_assoc, pure_bind]
    exact h.register hd fun r => ih hds fun n => hk _

theorem refresh (h : Allows settings stood rely ok known given) {k : Nat → Program ρ}
    (hk : ∀ n, Upholds stood rely ok (k n)) :
    Upholds stood rely ok (refresh settings >>= k) := by
  simp only [Registration.refresh, Program.act_bind, Program.call_bind]
  refine h.passes rfl ?_
  intro r hr
  cases r with
  | error e => exact hk 0
  | ok ds => exact h.registerAll (h.listed ds hr) hk

theorem reload (h : Allows settings stood rely ok known given) {k : Unit → Program ρ}
    (hk : ∀ u, Upholds stood rely ok (k u)) :
    Upholds stood rely ok (RefreshHook.run (.reload settings) >>= k) := by
  simp only [RefreshHook.run, RefreshHook.fill, Program.act_bind, Program.call_bind]
  refine h.passes rfl ?_
  intro _ _
  refine h.passes rfl ?_
  intro held _
  cases held with
  | false => exact hk ()
  | true =>
    simp only [if_true, bind_assoc]
    exact h.refresh fun _ => hk ()

theorem refreshBy (h : Allows settings stood rely ok known given) {k : Unit → Program ρ}
    (hk : ∀ u, Upholds stood rely ok (k u)) :
    Upholds stood rely ok (Cache.refreshBy RefreshHook.run >>= k) := by
  have hend : Upholds stood rely ok (Program.act .endTurn >>= k) := h.passes rfl fun _ _ => hk _
  have hcount : Upholds stood rely ok
      (Program.act .countRefresh >>= fun _ => Program.act .endTurn >>= k) :=
    h.passes rfl fun _ _ => hend
  simp only [Cache.refreshBy, Cache.refreshSince, Program.act_bind, Program.call_bind]
  refine h.passes rfl ?_
  intro seen _
  refine h.passes rfl ?_
  intro _ _
  refine h.passes rfl ?_
  intro count _
  -- A count that has gone up tells that somebody else has refreshed meanwhile.
  by_cases hc : count = seen
  · simp only [hc, if_true, bind_assoc, Program.act_bind, Program.call_bind]
    refine h.passes rfl ?_
    intro hook hr
    cases hook with
    | none => exact hcount
    | some hook =>
      obtain rfl := h.hook hook hr
      simp only [bind_assoc]
      exact h.reload fun _ => hcount
  · simpa [hc] using hend

theorem program (h : Allows settings stood rely ok known given) (c : Call)
    (hd : ∀ d, c = .register d → known d) (he : ∀ name, c = .unregister name → ok (.erase name))
    {k : Unit → Program ρ} (hk : ∀ u, Upholds stood rely ok (k u)) :
    Upholds stood rely ok (c.program settings >>= k) := by
  cases c with
  | register d =>
    simp only [Call.program, bind_assoc]
    exact h.register (hd d rfl) fun _ => hk _
  | unregister name => exact fun _ => ⟨he name rfl, fun _ _ => hk _⟩
  | refresh =>
    simp only [Call.program, bind_assoc]
    exact h.refresh fun _ => hk _
  | get name mayRefresh =>
    simp only [Call.program, Cache.get, Cache.getBy, bind_assoc, Program.act_bind,
      Program.call_bind]
    refine h.passes rfl ?_
    intro r _
    cases r with
    | some c => exact hk _
    | none =>
      cases mayRefresh with
      | false => exact hk _
      | true =>
        simp only [if_true, bind_assoc]
        exact h.refreshBy fun _ => h.passes rfl fun _ _ => hk _
  | list filters =>
    have hl : Upholds stood rely ok (Program.act .connections >>= fun _ => k ()) :=
      h.passes rfl fun _ _ => hk _
    simp only [Call.program, Cache.list, Cache.listBy, bind_assoc, Program.act_bind,
      Program.call_bind]
    refine h.passes rfl ?_
    intro cs _
    cases cs with
    | nil =>
      simp only [List.isEmpty_nil, if_true, bind_assoc]
      exact h.refreshBy fun _ => hl
    | cons c cs => exact hl

end Allows

end

def Rely {κ : Type} (settings : RegistrationSettings) (log : List (Event κ))
    (good : Connection → Prop) (i : Nat) (a : Action) (r : a.Reply) : Prop :=
  .acted i a r ∈ log ∧ match a, r with
    | .lookUp name, r => ∀ c, r = some c → c.name = name ∧ good c
    | .refreshHook, r => ∀ h, r = some h → h = .reload settings
    | _, _ => True

/-- In a run that leaves `log` behind, all entries are `good`, and tasks only do what is `ok`. -/
structure Kept {κ ρ : Type} (settings : RegistrationSettings) (stood : Program ρ → Prop)
    (good : Connection → Prop) (ok : Nat → κ → Action → Prop) (log : List (Event κ))
    (s : Crew κ ρ) : Prop where
  entries : ∀ e ∈ s.world.connections, e.2.name = e.1 ∧ good e.2
  hook : ∀ h, s.world.hook = some h → h = .reload settings
  tasks : ∀ i t, s.tasks i = some t → Upholds stood (Rely settings log good i) (ok i t.call) t.rest

section
variable {κ ρ : Type} {settings : RegistrationSettings} {stood : Program ρ → Prop}
  {good : Connection → Prop} {ok : Nat → κ → Action → Prop} {work : κ → Program ρ}
  {log : List (Event κ)} {s s' : Crew κ ρ} {e : Event κ}

theorem kept_idle {w : World} (hempty : w.connections = [])
    (hhook : ∀ h, w.hook = some h → h = .reload settings) :
    Kept settings stood good ok log (.idle w) := by
  refine ⟨?_, hhook, nofun⟩
  intro e he
  have he : e ∈ w.connections := he
  rw [hempty] at he
  cases he

theorem Kept.put (h : Kept settings stood good ok log s) {w : World}
    (he : ∀ e ∈ w.connections, e.2.name = e.1 ∧ good e.2) (hw : w.hook = s.world.hook) {i : Nat}
    {k : κ} {p : Program ρ} (hp : Upholds stood (Rely settings log good i) (ok i k) p) :
    Kept settings stood good ok log (s.put i ⟨k, p⟩ w) := by
  refine ⟨he, fun h' hh => h.hook h' (hw ▸ hh), fun j t ht => ?_⟩
  by_cases hj : j = i
  · subst hj
    rw [Crew.tasks_put_self, Option.some_inj] at ht
    subst ht
    exact hp
  · rw [Crew.tasks_put_of_ne s hj] at ht
    exact h.tasks j t ht

theorem Kept.rely (h : Kept settings stood good ok log s) {i : Nat} {a : Action} {r : a.Reply}
    {w : World} (hw : s.world.Answers i a r w) (he : .acted i a r ∈ log) :
    Rely settings log good i a r := by
  refine ⟨he, ?_⟩
  cases a with
  | lookUp name =>
    intro c hc
    exact h.entries _ (Table.mem_of_find? (hw.of_lookUp.symm.trans hc))
  | refreshHook =>
    intro hook hh
    exact h.hook hook (hw.of_refreshHook.symm.trans hh)
  | _ => trivial

theorem Kept.entries_step (h : Kept settings stood good ok log s) {i : Nat} {a : Action}
    (ha : ∀ c, a = .insert c → good c) :
    ∀ e ∈ (s.world.step i a).2.connections, e.2.name = e.1 ∧ good e.2 := by
  intro e he
  rw [World.connections_step] at he
  cases a with
  | insert c =>
    rcases Table.mem_insert he with rfl | he
    · exact ⟨rfl, ha c rfl⟩
    · exact h.entries e he
  | erase name => exact h.entries e (List.mem_filter.1 he).1
  | clear => cases he
  | _ => exact h.entries e he

theorem Kept.step (h : Kept settings stood good ok log s)
    (hwork : ∀ i k, Upholds stood (Rely settings log good i) (ok i k) (work k))
    (hok : ∀ i k c, ok i k (.insert c) → good c) (hs : Crew.Step work s e s') (he : e ∈ log)
    (ht : ∀ i t, s.tasks i = some t → stood t.rest) : Kept settings stood good ok log s' := by
  cases hs with
  | begins k _ => exact h.put h.entries rfl (hwork _ k)
  | @acts i k _ _ _ _ hi hw =>
    obtain ⟨ha, hnext⟩ := h.tasks _ _ hi (ht _ _ hi)
    have hc := hw.sameCache
    refine h.put ?_ (hc.hook.trans (World.hook_step ..)) (hnext _ (h.rely hw he))
    rw [hc.connections]
    exact h.entries_step fun c hc => hok i k c (hc ▸ ha)
  | waits _ hw =>
    obtain ⟨_, rfl⟩ := World.eq_takeTurn_of_step hw
    exact ⟨h.entries, h.hook, h.tasks⟩
  | @drops i _ _ _ _ =>
    exact h.put (w := { s.world with turn := s.world.turn.leave i }) (p := .crash) h.entries rfl
      trivial

end

def Inserts (good : Connection → Prop) : Action → Prop
  | .insert c => good c
  | _ => True

section
variable {settings : RegistrationSettings} {stood : Program Unit → Prop}
  {given : Descriptor → Prop} {log : List (Event Call)}

theorem allows_coherent (hs : ∀ d rest, stood (register settings d >>= rest) → given d) (i : Nat) :
    Allows settings stood (Rely settings log (Coherent settings given log) i)
      (Inserts (Coherent settings given log)) (fun _ => True) given where
  other a ha _ := by
    cases a <;> trivial
  stands d rest _ := hs d rest
  lists := trivial
  opened d token client hd hs hne ht hr :=
    ⟨⟨d, hd, describes_connection hs token client⟩, hne, ht, i, hr.1⟩
  kept d c hd hr ha := by
    obtain ⟨hn, hc⟩ := hr.2 c rfl
    obtain ⟨d', _, hdesc⟩ := hc.described
    exact ⟨⟨d, hd, hdesc.of_agrees hn ha⟩, hc.token_ne, hc.trimmed, hc.built⟩
  listed _ _ _ _ := trivial
  hook h hr := hr.2 h rfl

theorem upholds_program (hs : ∀ d rest, stood (register settings d >>= rest) → given d) (i : Nat)
    (k : Call) : Upholds stood (Rely settings log (Coherent settings given log) i)
      (Inserts (Coherent settings given log)) (k.program settings) := by
  have hallows : Allows settings stood (Rely settings log (Coherent settings given log) i)
      (Inserts (Coherent settings given log)) (fun _ => True) given := allows_coherent hs i
  have h := hallows.program k (fun _ _ => trivial) (fun _ _ => trivial) (k := pure)
    fun _ => trivial
  rwa [bind_pure] at h

end

section
variable {settings : RegistrationSettings} {log : List (Event Call)} {s : Crew Call Unit}

theorem kept_of_run {w : World} (hempty : w.connections = [])
    (hhook : ∀ h, w.hook = some h → h = .reload settings) {final : Crew Call Unit}
    {later : List (Event Call)} (h : Crew.Run (Call.program settings) (.idle w) log s)
    (h' : Crew.Run (Call.program settings) s later final) :
    Kept settings (Stood settings (.idle w) final (later ++ log))
      (Coherent settings (Given settings (.idle w) final (later ++ log)) (later ++ log))
      (fun _ _ => Inserts
        (Coherent settings (Given settings (.idle w) final (later ++ log)) (later ++ log)))
      (later ++ log) s := by
  induction h generalizing later with
  | here => exact kept_idle hempty hhook
  | @step s s' e log h hs ih =>
    have hrest : Crew.Run (Call.program settings) s (later ++ [e]) final :=
      (Crew.Run.here.step hs).trans h'
    -- What has stood is told by the whole log, so the step is moved over to the later part.
    have hlog : later ++ e :: log = (later ++ [e]) ++ log := by simp
    rw [hlog]
    refine (ih hrest).step (fun i k => upholds_program (fun d rest hd => ⟨rest, hd⟩) i k)
      (fun _ _ _ hc => hc) hs (by simp) fun i t ht => ?_
    exact ⟨s, log, later ++ [e], i, t.call, rfl, h, hrest, ht⟩

end

/-- Each entry of a cache that was empty when the first task began. -/
theorem coherent_of_run {settings : RegistrationSettings} {w : World} {log : List (Event Call)}
    {s : Crew Call Unit} (hempty : w.connections = [])
    (hhook : ∀ h, w.hook = some h → h = .reload settings)
    (h : Crew.Run (Call.program settings) (.idle w) log s) {name : String} {c : Connection}
    (hc : (name, c) ∈ s.world.connections) :
    c.name = name ∧ Coherent settings (Given settings (.idle w) s log) log c :=
  (kept_of_run hempty hhook h .here).entries _ hc

def newcomer : Descriptor where
  metadata := ⟨some "west", none, some "members", none, []⟩
  spec := ⟨"https://west.example", none, "west-token", none⟩
  status := none

def newcomerClient : Client :=
  ClientFactory.direct (restConfig newcomer "secret")

def emptyWorld : World where
  store := .memory {}
  clock := { start := ⟨0, 0⟩ }

theorem newcomer_run : ∃ log s, Crew.Run (Call.program {}) (.idle emptyWorld) log s ∧
    ("west", connection {} newcomer (restConfig newcomer "secret") newcomerClient) ∈
      s.world.connections := by
  have h₀ : Crew.Run (Call.program {}) (.idle emptyWorld) _ _ :=
    Crew.Run.here.step (.begins (i := 0) (.register newcomer) rfl)
  have h₁ := h₀.step (.acts (i := 0) (a := .lookUp "west") rfl (.cache rfl rfl))
  have h₂ := h₁.step (.acts (i := 0) (a := .readSecret "members" "west-token")
    (r := .ok (some [("token", " secret ")])) rfl (.outside nofun ⟨rfl, rfl, rfl, rfl⟩))
  have h₃ := h₂.step (.acts (i := 0) (a := .buildClient (restConfig newcomer "secret"))
    (r := .built newcomerClient) rfl (.outside nofun ⟨rfl, rfl, rfl, rfl⟩))
  have h₄ := h₃.step (.acts (i := 0) rfl (.cache rfl rfl))
  exact ⟨_, _, h₄, List.mem_cons_self⟩

theorem coherent_newcomer : ∃ log s, Crew.Run (Call.program {}) (.idle emptyWorld) log s ∧
    ∃ c, ("west", c) ∈ s.world.connections ∧ c.name = "west" ∧
      Coherent {} (Given {} (.idle emptyWorld) s log) log c := by
  obtain ⟨log, s, h, hc⟩ := newcomer_run
  have hhook : ∀ hook, emptyWorld.hook = some hook → hook = .reload {} := by
    intro hook hh
    simp [emptyWorld] at hh
  exact ⟨log, s, h, _, hc, coherent_of_run rfl hhook h hc⟩

end ClusterFleet.Registration
