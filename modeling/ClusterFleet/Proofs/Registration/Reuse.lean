import ClusterFleet.Proofs.Moment
import ClusterFleet.Proofs.Registration.Coherence

namespace ClusterFleet.Registration

/-- Nothing that the program does is up to the cache. -/
def Offside {α : Type} : Program α → Prop
  | .done _ => True
  | .crash => True
  | .call a next => ¬a.onCache ∧ ∀ r, Offside (next r)

def Ensures {α : Type} (post : α → Prop) : Program α → Prop
  | .done a => post a
  | .crash => True
  | .call _ next => ∀ r, Ensures post (next r)

theorem Ensures.run {α : Type} {post : α → Prop} {p : Program α} (hp : Ensures post p) {a : α}
    {w w' : World} (h : p.run w = (some a, w')) : post a := by
  induction p generalizing w with
  | done b =>
    cases h
    exact hp
  | crash => cases h
  | call act next ih => exact ih _ (hp _) h

def withConnections (w : World) (t : Table Connection) : World := { w with connections := t }

theorem guarded_withConnections (w : World) (t : Table Connection) (fault : Option Fault)
    (call : Store → Except StoreError α × Store) :
    (withConnections w t).guarded fault call =
      ((w.guarded fault call).1, withConnections (w.guarded fault call).2 t) := by
  cases fault <;> rfl

theorem perform_withConnections {a : Action} (ha : ¬a.onCache) (w : World) (t : Table Connection) :
    (withConnections w t).perform a = ((w.perform a).1, withConnections (w.perform a).2 t) := by
  cases a with
  | findCluster name => exact guarded_withConnections w t w.faults.get (Store.find name)
  | listClusters => exact guarded_withConnections w t w.faults.list Store.list
  | readSecret ns name => exact guarded_withConnections w t w.faults.secret (Store.secret ns name)
  | writeStatus name st =>
    have hf : (withConnections w t).faults = w.faults := rfl
    simp only [World.perform, hf]
    cases w.faults.update <;> rfl
  | _ => first | rfl | exact absurd rfl ha

theorem run_withConnections {α : Type} {p : Program α} (hp : Offside p) (w : World)
    (t : Table Connection) :
    p.run (withConnections w t) = ((p.run w).1, withConnections (p.run w).2 t) := by
  induction p generalizing w with
  | done a => rfl
  | crash => rfl
  | call a next ih =>
    have ha := perform_withConnections hp.1 w t
    simp only [Program.run, Program.runBy_call] at ih ⊢
    rw [ha]
    exact ih _ (hp.2 _) _

theorem connections_run {α : Type} {p : Program α} (hp : Offside p) (w : World) :
    (p.run w).2.connections = w.connections := by
  have h := run_withConnections hp w w.connections
  exact congrArg (fun r => r.2.connections) h

/-- Opens a connection without putting it into the cache. -/
def dial (settings : RegistrationSettings) (d : Descriptor) :
    Program (Except RegistrationError Connection) := do
  match ← resolve settings d with
  | .error e => return .error e
  | .ok config =>
    match ← Program.act (.buildClient config) with
    | .crashed => .crash
    | .refused e => return .error (.client d.name e)
    | .built client => return .ok (connection settings d config client)

section
variable (settings : RegistrationSettings) (d : Descriptor) (w : World)

theorem connect_eq_dial : connect settings d = dial settings d >>= fun
    | .error e => return .error e
    | .ok c => do
      Program.act (.insert c)
      return .ok () := by
  unfold connect dial
  rw [bind_assoc]
  -- Both resolve the credentials first and then go on with what they got.
  congr 1
  funext r
  cases r with
  | error e => rfl
  | ok config =>
    simp only [Program.act_bind, Program.call_bind]
    congr 1
    funext outcome
    cases outcome <;> rfl

theorem offside_dial : Offside (dial settings d) := by
  by_cases hs : d.spec.secretName = ""
  · simp only [dial, resolve, hs, if_true, pure_bind]
    trivial
  · simp only [dial, resolve, hs, if_false, Program.act_bind, Program.call_bind]
    refine ⟨Bool.false_ne_true, fun data => ?_⟩
    cases data with
    | error e => trivial
    | ok data =>
      simp only [pure_bind]
      cases fromSecret settings d data with
      | error e => trivial
      | ok config => exact ⟨Bool.false_ne_true, fun outcome => by cases outcome <;> trivial⟩

theorem ensures_dial :
    Ensures (fun r => ∀ c, r = .ok c → Describes settings d c) (dial settings d) := by
  have hrefused : ∀ (e : RegistrationError) c, Except.error e = .ok c →
      Describes settings d c := by
    intro e c he
    cases he
  by_cases hs : d.spec.secretName = ""
  · simp only [dial, resolve, hs, if_true, pure_bind]
    exact hrefused _
  · simp only [dial, resolve, hs, if_false, Program.act_bind, Program.call_bind]
    intro data
    cases data with
    | error e => exact hrefused _
    | ok data =>
      simp only [pure_bind]
      cases hf : fromSecret settings d data with
      | error e => exact hrefused _
      | ok config =>
        obtain ⟨token, rfl, _, _⟩ := fromSecret_spec hf
        intro outcome
        cases outcome with
        | crashed => trivial
        | refused e => exact hrefused _
        | built client =>
          rintro c ⟨⟩
          exact describes_connection hs token client

variable {settings d w} in
theorem describes_dial {c : Connection} {w' : World}
    (h : (dial settings d).run w = (some (.ok c), w')) : Describes settings d c :=
  (ensures_dial settings d).run h c rfl

theorem connect_run : (connect settings d).run w = match (dial settings d).run w with
    | (some (.ok c), w') => (some (.ok ()), withConnections w' (w.connections.insert c.name c))
    | (some (.error e), w') => (some (.error e), w')
    | (none, w') => (none, w') := by
  have hc := connections_run (offside_dial settings d) w
  rw [connect_eq_dial, Program.run, Program.runBy_bind]
  unfold Program.run at hc ⊢
  cases hr : (dial settings d).runBy World.perform w with
  | mk r w' =>
    rw [hr] at hc
    cases r with
    | none => rfl
    | some r =>
      cases r with
      | error e => rfl
      | ok c =>
        rw [← hc]
        rfl

/-- The open connection that a registration would keep. -/
def reusable : Option Connection :=
  (w.connections.find? d.name).filter (agrees settings · d)

theorem register_run : (register settings d).run w =
    match reusable settings d w with
    | some c => (some (.ok ()),
        withConnections w (w.connections.insert c.name { c with status := d.status.getD .empty }))
    | none => (connect settings d).run w := by
  simp only [Program.run, register, reusable, Program.act_bind, Program.runBy_call, World.perform]
  cases w.connections.find? d.name with
  | none => rfl
  | some c =>
    by_cases ha : agrees settings c d
    · simp [ha, Option.filter]
      rfl
    · simp [ha, Option.filter]

/-- The entry that a registration makes with nothing in the cache. -/
def first? : Option Connection :=
  match (register settings d).run (withConnections w []) with
  | (some (.ok _), w') => w'.connections.find? d.name
  | _ => none

theorem register_run_empty : (register settings d).run (withConnections w []) =
    match (dial settings d).run w with
    | (some (.ok c), w') => (some (.ok ()), withConnections w' [(c.name, c)])
    | (some (.error e), w') => (some (.error e), withConnections w' [])
    | (none, w') => (none, withConnections w' []) := by
  have hr : reusable settings d (withConnections w []) = none := rfl
  rw [register_run, hr]
  show (connect settings d).run (withConnections w []) = _
  rw [connect_run, run_withConnections (offside_dial settings d)]
  cases (dial settings d).run w with
  | mk r w' =>
    cases r with
    | none => rfl
    | some r => cases r <;> rfl

theorem first?_eq_dial : first? settings d w = match (dial settings d).run w with
    | (some (.ok c), _) => some c
    | _ => none := by
  unfold first?
  rw [register_run_empty]
  cases hd : (dial settings d).run w with
  | mk r w' =>
    cases r with
    | none => rfl
    | some r =>
      cases r with
      | error e => rfl
      | ok c =>
        show Table.find? d.name (Table.insert c.name c []) = some c
        rw [(describes_dial hd).name]
        exact Table.find?_insert_self d.name c []

variable {settings d w}

theorem describes_first {p : Connection} (h : first? settings d w = some p) :
    Describes settings d p := by
  rw [first?_eq_dial] at h
  split at h
  · next hd =>
    cases h
    exact describes_dial hd
  · cases h

theorem exists_first (h : ((register settings d).run (withConnections w [])).1 = some (.ok ())) :
    ∃ p, first? settings d w = some p := by
  rw [register_run_empty] at h
  rw [first?_eq_dial]
  cases hd : (dial settings d).run w with
  | mk r w' =>
    rw [hd] at h
    cases r with
    | none => cases h
    | some r =>
      cases r with
      | error e => cases h
      | ok c => exact ⟨c, rfl⟩

theorem register_run_of_reusable {c : Connection} (hn : c.name = d.name)
    (h : reusable settings d w = some c) : (register settings d).run w = (some (.ok ()),
      withConnections w
        (w.connections.insert d.name { c with status := d.status.getD .empty })) := by
  rw [register_run, h, ← hn]

theorem register_run_of_first {p : Connection} (h : reusable settings d w = none)
    (hp : first? settings d w = some p) : ∃ w', (register settings d).run w = (some (.ok ()), w') ∧
      w'.connections = w.connections.insert d.name p := by
  rw [first?_eq_dial] at hp
  rw [register_run, h]
  show ∃ w', (connect settings d).run w = (some (.ok ()), w') ∧ _
  rw [connect_run]
  split at hp
  · next hd =>
    cases hp
    rw [hd, ← (describes_dial hd).name]
    exact ⟨_, rfl, rfl⟩
  · cases hp

theorem connections_register_of_first (h : reusable settings d w = none)
    (hp : first? settings d w = none) :
    ((register settings d).run w).2.connections = w.connections := by
  have hc := connections_run (offside_dial settings d) w
  rw [first?_eq_dial] at hp
  rw [register_run, h]
  show ((connect settings d).run w).2.connections = _
  rw [connect_run]
  cases hr : (dial settings d).run w with
  | mk r w' =>
    rw [hr] at hp hc
    cases r with
    | none => exact hc
    | some r =>
      cases r with
      | error e => exact hc
      | ok c => cases hp

end

/--
How one world comes from another by registering, unregistering and refreshing: by these calls, the
latest of them first, each with the world that it found. In between, anything outside the cache may
change, such as the secrets.
-/
inductive Leads (settings : RegistrationSettings) (w₀ : World) :
    List (World × Call) → World → Prop where
  | here : Leads settings w₀ [] w₀
  | registers {w : World} {log : List (World × Call)} (d : Descriptor) :
    Leads settings w₀ log w →
      Leads settings w₀ ((w, .register d) :: log) ((register settings d).run w).2
  | unregisters {w : World} {log : List (World × Call)} (name : String) :
    Leads settings w₀ log w →
      Leads settings w₀ ((w, .unregister name) :: log) ((unregister name).run w).2
  | refreshes {w : World} {log : List (World × Call)} : Leads settings w₀ log w →
    Leads settings w₀ ((w, .refresh) :: log) ((refresh settings).run w).2
  | changes {w w' : World} {log : List (World × Call)} :
    w'.connections = w.connections → Leads settings w₀ log w → Leads settings w₀ log w'

/-- The registrations of many descriptors, each with the world that it finds. -/
def oneByOne (settings : RegistrationSettings) (w : World) :
    List Descriptor → List (World × Descriptor)
  | [] => []
  | d :: ds => (w, d) :: match (register settings d).run w with
    | (some _, w) => oneByOne settings w ds
    | (none, _) => []

def registrations (settings : RegistrationSettings) : World × Call → List (World × Descriptor)
  | (w, .register d) => [(w, d)]
  | (w, .refresh) => match w.perform .listClusters with
    | (.ok ds, w) => oneByOne settings w ds
    | (.error _, _) => []
  | _ => []

/-- The connection is the one that one of these registrations has opened, which found none to
keep. -/
def Opened (settings : RegistrationSettings) (rs : List (World × Descriptor)) (c : Connection) :
    Prop :=
  ∃ w d p, (w, d) ∈ rs ∧ reusable settings d w = none ∧ first? settings d w = some p ∧
    p.name = c.name ∧ p.restConfig = c.restConfig ∧ p.client = c.client

def Founded (settings : RegistrationSettings) (rs : List (World × Descriptor)) (w : World) : Prop :=
  ∀ e ∈ w.connections,
    e.2.name = e.1 ∧ (∃ d, Describes settings d e.2) ∧ Opened settings rs e.2

/-- `p`, with the token and the client of another connection. -/
def keeping (p c : Connection) : Connection :=
  { p with
    restConfig := { p.restConfig with bearerToken := c.restConfig.bearerToken }
    client := c.client }

section
variable {settings : RegistrationSettings} {w₀ w w' : World} {d : Descriptor} {c p : Connection}
  {log : List (World × Call)} {rs rs' : List (World × Descriptor)}

/-- All that a descriptor does not determine is the token and the client. -/
theorem Describes.eq_keeping (h : Describes settings d c) (hp : Describes settings d p) :
    c = keeping p c := by
  -- Whether a flag is set says which of the two values it has.
  have hi : c.restConfig.insecure = p.restConfig.insecure :=
    Bool.eq_iff_iff.2 (h.insecure.trans hp.insecure.symm)
  have hh : c.restConfig.host = p.restConfig.host := h.host.trans hp.host.symm
  have hca : c.restConfig.caData = p.restConfig.caData := h.caData.trans hp.caData.symm
  have hc : c.restConfig = { p.restConfig with bearerToken := c.restConfig.bearerToken } := by
    simp only [← hh, ← hi, ← hca]
  have hn : c.name = p.name := h.name.trans hp.name.symm
  have hs : c.status = p.status := h.status.trans hp.status.symm
  have he : c.apiEndpoint = p.apiEndpoint := h.apiEndpoint.trans hp.apiEndpoint.symm
  have hsn : c.secretName = p.secretName := h.secretName.trans hp.secretName.symm
  have ho : c.owner = p.owner := h.owner.trans hp.owner.symm
  have hw : c.operatorNamespace = p.operatorNamespace :=
    h.operatorNamespace.trans hp.operatorNamespace.symm
  unfold keeping
  rw [← hc, ← hn, ← hs, ← he, ← hsn, ← ho, ← hw]

theorem Opened.mono (h : Opened settings rs c) (hrs : rs ⊆ rs') : Opened settings rs' c := by
  obtain ⟨w, d, p, hd, hp⟩ := h
  exact ⟨w, d, p, hrs hd, hp⟩

theorem Founded.mono (h : Founded settings rs w) (hrs : rs ⊆ rs')
    (hs : w'.connections ⊆ w.connections) : Founded settings rs' w' := by
  intro e he
  obtain ⟨hn, hd, ho⟩ := h e (hs he)
  exact ⟨hn, hd, ho.mono hrs⟩

theorem Founded.of_reusable (h : Founded settings rs w) (hc : reusable settings d w = some c) :
    c.name = d.name ∧ agrees settings c d ∧ (∃ d', Describes settings d' c) ∧
      Opened settings rs c := by
  obtain ⟨hf, ha⟩ := Option.filter_eq_some_iff.1 hc
  obtain ⟨hn, hd, ho⟩ := h _ (Table.mem_of_find? hf)
  exact ⟨hn, ha, hd, ho⟩

theorem Founded.registers (h : Founded settings rs w) (d : Descriptor) :
    Founded settings ((w, d) :: rs) ((register settings d).run w).2 := by
  have hsub : rs ⊆ (w, d) :: rs := List.subset_cons_self _ _
  -- A connection that is kept has been opened before; a new one is opened right here.
  cases hr : reusable settings d w with
  | some c =>
    obtain ⟨hn, ha, ⟨d', hd'⟩, ho⟩ := h.of_reusable hr
    intro e he
    rw [register_run_of_reusable hn hr] at he
    rcases Table.mem_insert he with rfl | he
    · exact ⟨hn, ⟨d, hd'.of_agrees hn ha⟩, ho.mono hsub⟩
    · exact h.mono hsub (List.Subset.refl _) e he
  | none =>
    cases hf : first? settings d w with
    | none =>
      refine h.mono hsub ?_
      rw [connections_register_of_first hr hf]
      exact List.Subset.refl _
    | some p =>
      obtain ⟨w', hrun, hc⟩ := register_run_of_first hr hf
      intro e he
      rw [hrun, hc] at he
      have hd := describes_first hf
      rcases Table.mem_insert he with rfl | he
      · exact ⟨hd.name, ⟨d, hd⟩, w, d, p, List.mem_cons_self, hr, hf, rfl, rfl, rfl⟩
      · exact h.mono hsub (List.Subset.refl _) e he

theorem Founded.registersAll (h : Founded settings rs w) (ds : List Descriptor) :
    Founded settings (oneByOne settings w ds ++ rs) ((registerAll settings ds).run w).2 := by
  induction ds generalizing w rs with
  | nil => exact h
  | cons d ds ih =>
    have hfirst := h.registers d
    simp only [oneByOne, registerAll, Program.run, Program.runBy_bind] at hfirst ih ⊢
    cases hr : (register settings d).runBy World.perform w with
    | mk r w₁ =>
      rw [hr] at hfirst
      cases r with
      | none => exact hfirst
      | some r =>
        have hrest := (ih hfirst).mono List.perm_middle.subset (List.Subset.refl _)
        -- What is counted in the end does not matter to the cache.
        simp only at hrest ⊢
        cases hn : (registerAll settings ds).runBy World.perform w₁ with
        | mk n w₂ =>
          rw [hn] at hrest
          cases n with
          | none => exact hrest
          | some n => exact hrest

theorem Founded.refreshes (h : Founded settings rs w) :
    Founded settings (registrations settings (w, .refresh) ++ rs)
      ((refresh settings).run w).2 := by
  have hc : (w.perform .listClusters).2.connections = w.connections := by
    have hp := perform_withConnections (a := .listClusters) nofun w w.connections
    exact congrArg (fun r => r.2.connections) hp
  have hlisted : Founded settings rs (w.perform .listClusters).2 :=
    h.mono (List.Subset.refl _) (hc ▸ List.Subset.refl _)
  simp only [refresh, registrations, Program.run, Program.act_bind, Program.runBy_call]
  cases hl : w.perform .listClusters with
  | mk r w₁ =>
    rw [hl] at hlisted
    cases r with
    | error e => exact hlisted
    | ok ds => exact hlisted.registersAll ds

theorem founded_of_leads (hempty : w₀.connections = []) (h : Leads settings w₀ log w) :
    Founded settings (log.flatMap (registrations settings)) w := by
  induction h with
  | here =>
    intro e he
    rw [hempty] at he
    cases he
  | registers d _ ih => exact ih.registers d
  | unregisters name _ ih => exact ih.mono (List.Subset.refl _) List.filter_sublist.subset
  | refreshes _ ih => exact ih.refreshes
  | changes hc _ ih => exact ih.mono (List.Subset.refl _) (hc ▸ List.Subset.refl _)

/-- The entry that registering leaves behind, if the descriptor can be registered at all. -/
theorem registered_of_leads (hempty : w₀.connections = []) (h : Leads settings w₀ log w)
    (hd : ((register settings d).run (withConnections w [])).1 = some (.ok ())) :
    ∃ p w', first? settings d w = some p ∧ (register settings d).run w = (some (.ok ()), w') ∧
      match reusable settings d w with
      | none => w'.connections.find? d.name = some p
      | some c => w'.connections.find? d.name = some (keeping p c) ∧
          Opened settings (log.flatMap (registrations settings)) c := by
  obtain ⟨p, hp⟩ := exists_first hd
  refine ⟨p, ?_⟩
  cases hr : reusable settings d w with
  | none =>
    obtain ⟨w', hrun, hc⟩ := register_run_of_first hr hp
    refine ⟨w', hp, hrun, ?_⟩
    rw [hc]
    exact Table.find?_insert_self d.name p w.connections
  | some c =>
    -- What is cached was described by some `d'`, and since it agrees with `d` it is by `d` as well.
    obtain ⟨hn, ha, ⟨d', hd'⟩, ho⟩ := (founded_of_leads hempty h).of_reusable hr
    refine ⟨_, hp, register_run_of_reusable hn hr, ?_, ho⟩
    have hkeep := (hd'.of_agrees hn ha).eq_keeping (describes_first hp)
    have hfind := Table.find?_insert_self d.name { c with status := d.status.getD .empty }
      w.connections
    exact hfind.trans (congrArg some hkeep)

end

def vault (token : String) : World where
  store := .memory (({} : MemoryStore).putSecret "members" "west-token" [("token", token)])
  clock := { start := ⟨0, 0⟩ }

/-- The cluster is registered with one token, and then its secret is given another one. -/
def rotated : World :=
  { ((register {} newcomer).run (vault "first")).2 with store := (vault "second").store }

theorem leads_rotated : Leads {} (vault "first") [(vault "first", .register newcomer)] rotated := by
  have hc : rotated.connections = ((register {} newcomer).run (vault "first")).2.connections := rfl
  exact .changes hc (.registers newcomer .here)

theorem registered_rotated :
    Leads {} (vault "first") [(vault "first", .register newcomer)] rotated ∧
    ∃ p w' c, first? {} newcomer rotated = some p ∧
      (register {} newcomer).run rotated = (some (.ok ()), w') ∧
      w'.connections.find? "west" = some (keeping p c) ∧
      Opened {} [(vault "first", newcomer)] c := by
  have hs : ((register {} newcomer).run (withConnections rotated [])).1 = some (.ok ()) := rfl
  obtain ⟨p, w', hp, hrun, hmatch⟩ := registered_of_leads rfl leads_rotated hs
  exact ⟨leads_rotated, p, w', _, hp, hrun, hmatch⟩

/-- The token that the secret no longer holds stays in use. -/
theorem stale_rotated :
    Leads {} (vault "first") [(vault "first", .register newcomer)] rotated ∧
    (vault "first").connections = [] ∧
    (rotated.perform (.readSecret "members" "west-token")).1 = .ok (some [("token", "second")]) ∧
    ((register {} newcomer).run (withConnections rotated [])).1 = some (.ok ()) ∧
    (first? {} newcomer rotated).map (·.restConfig) = some (restConfig newcomer "second") ∧
    ((register {} newcomer).run rotated).1 = some (.ok ()) ∧
    (((register {} newcomer).run rotated).2.connections.find? "west").map (·.restConfig) =
      some (restConfig newcomer "first") ∧
    restConfig newcomer "first" ≠ restConfig newcomer "second" := by
  refine ⟨leads_rotated, rfl, rfl, rfl, rfl, rfl, rfl, ?_⟩
  intro h
  have htoken : "first" = "second" := congrArg RestConfig.bearerToken h
  exact absurd htoken (by decide)

end ClusterFleet.Registration
