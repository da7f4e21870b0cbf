import ClusterFleet.Health.Pass
import ClusterFleet.Proofs.Moment
import ClusterFleet.Proofs.Registration.Coherence
import ClusterFleet.Proofs.Store.Log

namespace ClusterFleet.Restart
open Registration

structure Gist where
  client : String → Option Client
  store : Store
  probes : List Client

def gist (w : World) : Gist where
  client name := (w.connections.find? name).map (·.client)
  store := w.store.unlogged
  probes := w.journal.probes

def IsApart : Action → Prop
  | .findCluster _ | .writeStatus _ _ | .probe _ | .now => True
  | _ => False

/-- Of the cache the program takes in nothing but clients. -/
inductive Heedless {α : Type} : Program α → Prop
  | done (v : α) : Heedless (.done v)
  | crash : Heedless .crash
  | looks {name : String} {next : Option Connection → Program α}
    (hsame : ∀ c c', c.map (·.client) = c'.map (·.client) → next c = next c')
    (hn : ∀ c, Heedless (next c)) : Heedless (.call (.lookUp name) next)
  | acts {a : Action} {next : a.Reply → Program α} (ha : IsApart a) (hn : ∀ r, Heedless (next r)) :
    Heedless (.call a next)

section
variable {build : RestConfig → BuildOutcome} {m : Moment} {w w' : World} {α : Type}
  {p : Program α} {a : Action}

theorem gist_eq_iff : gist w = gist w' ↔
    (∀ name, (w.connections.find? name).map (·.client) =
      (w'.connections.find? name).map (·.client)) ∧
    w.store.unlogged = w'.store.unlogged ∧ w.journal.probes = w'.journal.probes := by
  simp only [gist, Gist.mk.injEq, funext_iff]

theorem same_respond (ha : IsApart a) (h : gist w = gist w') :
    Same gist (w.respond build m a) (w'.respond build m a) := by
  obtain ⟨hc, hs, hp⟩ := gist_eq_iff.1 h
  cases a with
  | findCluster name =>
    simp only [World.respond, World.ask]
    cases m.unread with
    | some e => exact ⟨rfl, h⟩
    | none =>
      obtain ⟨hr, hs⟩ := Store.find_congr hs name
      exact ⟨hr, gist_eq_iff.2 ⟨hc, hs, hp⟩⟩
  | writeStatus name st =>
    simp only [World.respond]
    cases m.unwritten with
    | some e => exact ⟨rfl, h⟩
    | none =>
      obtain ⟨hr, hs⟩ := Store.writeStatus_congr hs name st
      exact ⟨hr, gist_eq_iff.2 ⟨hc, hs, hp⟩⟩
  | probe c => exact ⟨rfl, gist_eq_iff.2 ⟨hc, hs, congrArg (· ++ [c]) hp⟩⟩
  | now => exact ⟨rfl, gist_eq_iff.2 ⟨hc, hs, hp⟩⟩
  | _ => cases ha

theorem Heedless.run (hp : Heedless p) (h : gist w = gist w') :
    Same gist (p.runBy (World.respond build m) w) (p.runBy (World.respond build m) w') := by
  induction hp generalizing w w' with
  | done v => exact ⟨rfl, h⟩
  | crash => exact ⟨rfl, h⟩
  | @looks name next hsame _ ih =>
    have hnext : next (w.connections.find? name) = next (w'.connections.find? name) :=
      hsame _ _ ((gist_eq_iff.1 h).1 name)
    show Same gist ((next (w.connections.find? name)).runBy (World.respond build m) w)
      ((next (w'.connections.find? name)).runBy (World.respond build m) w')
    rw [hnext]
    exact ih _ h
  | @acts a next ha _ ih =>
    obtain ⟨hr, hg⟩ : Same gist (w.respond build m a) (w'.respond build m a) := same_respond ha h
    rw [Program.runBy_call, Program.runBy_call, hr]
    exact ih _ hg

theorem heedless_persist (name : String) (cs : List Condition)
    (r : Except PassError PassOutcome) : Heedless (Health.persist name cs r) := by
  refine .acts trivial fun written => ?_
  cases written <;> exact .done _

theorem heedless_pass (interval : Span) (name : String) : Heedless (Health.pass interval name) := by
  refine .acts trivial fun found => ?_
  cases found with
  | error e => exact .done _
  | ok found =>
    cases found with
    | none => exact .done _
    | some d =>
      refine .looks (fun c c' hc => ?_) fun c => ?_
      · match c, c', hc with
        | none, none, _ => rfl
        | some ⟨_, _, _, _, _, _, client, _⟩, some ⟨_, _, _, _, _, _, _, _⟩, hc =>
          obtain rfl : client = _ := Option.some.inj hc
          rfl
      · cases c with
        | none => exact .acts trivial fun _ => heedless_persist _ _ _
        | some c => exact .acts trivial fun _ => .acts trivial fun _ => heedless_persist _ _ _

end

structure Visit where
  name : String
  moment : Moment

/-- What can be seen of a pass: how it ends, the requests it sends, and what is stored after it. -/
structure Sight where
  outcome : Option (Except PassError PassOutcome)
  /-- The clients that were used, each with its host and its token. -/
  probes : List Client
  stored : Store

section
variable (build : RestConfig → BuildOutcome) (interval : Span)

def Visit.run (w : World) (v : Visit) : Option (Except PassError PassOutcome) × World :=
  (Health.pass interval v.name).runBy (World.respond build v.moment) { w with journal := {} }

def sights (w : World) : List Visit → List Sight
  | [] => []
  | v :: vs =>
    let (outcome, w) := v.run build interval w
    ⟨outcome, w.journal.probes, w.store.unlogged⟩ :: sights w vs

variable {build interval} {w w' : World}

theorem sights_congr (hc : ∀ name, (w.connections.find? name).map (·.client) =
      (w'.connections.find? name).map (·.client)) (hs : w.store.unlogged = w'.store.unlogged)
    (vs : List Visit) : sights build interval w vs = sights build interval w' vs := by
  induction vs generalizing w w' with
  | nil => rfl
  | cons v vs ih =>
    have hg : gist { w with journal := {} } = gist { w' with journal := {} } :=
      gist_eq_iff.2 ⟨hc, hs, rfl⟩
    obtain ⟨hr, hg⟩ : Same gist (v.run build interval w) (v.run build interval w') :=
      (heedless_pass interval v.name).run hg
    obtain ⟨hc, hs, hp⟩ := gist_eq_iff.1 hg
    exact List.cons_eq_cons.2 ⟨(Sight.mk.injEq ..).mpr ⟨hr, hp, hs⟩, ih hc hs⟩

end

/-- A process that has just begun, over the same store. -/
def restarted (w : World) : World :=
  { w with connections := [], hookRuns := 0, refreshes := 0, turn := {}, journal := {} }

/-- The descriptor's client is the one that is built for it now. -/
def Current (settings : RegistrationSettings) (build : RestConfig → BuildOutcome) (w : World)
    (d : Descriptor) : Prop :=
  ∃ c data token, w.connections.find? d.name = some c ∧ d.spec.secretName ≠ "" ∧
    (w.store.secret d.secretNamespace d.spec.secretName).1 = .ok (some data) ∧
    token? settings.tokenKey data = some token ∧ build (restConfig d token) = .built c.client

section
variable {settings : RegistrationSettings} {build : RestConfig → BuildOutcome} {m : Moment}
  {w u : World} {d : Descriptor} {ds : List Descriptor}

theorem register_runBy (hm : m.sealed = none) (hd : Current settings build w d)
    (hcalm : w.store.IsCalm)
    (hu : u.store.unlogged = w.store.unlogged) (hnew : u.connections.find? d.name = none) :
    ∃ u' c, (register settings d).runBy (World.respond build m) u = (some (.ok ()), u') ∧
      u'.store.unlogged = w.store.unlogged ∧ u'.connections = u.connections.insert d.name c ∧
      (w.connections.find? d.name).map (·.client) = some c.client := by
  obtain ⟨c, data, token, hc, hs, hdata, htoken, hbuilt⟩ := hd
  obtain ⟨hsecret, hstore⟩ := Store.secret_congr hu d.secretNamespace d.spec.secretName
  have hstore := hstore.trans (hcalm.unlogged_secret ..)
  have hconfig : fromSecret settings d (some data) = .ok (restConfig d token) := by
    simp only [fromSecret, htoken]
  -- Nothing is cached yet, so that the client is made from what is secret.
  have hlook : u.respond build m (.lookUp d.name) = (none, u) := Prod.ext hnew rfl
  have hread : u.respond build m (.readSecret d.secretNamespace d.spec.secretName) =
      (.ok (some data), { u with
        store := (u.store.secret d.secretNamespace d.spec.secretName).2 }) := by
    simp only [World.respond, hm, World.ask, hsecret.trans hdata]
  have hbuild (u : World) : u.respond build m (.buildClient (restConfig d token)) =
      (.built c.client, (u.perform (.buildClient (restConfig d token))).2) :=
    Prod.ext hbuilt rfl
  have hrun : (register settings d).runBy (World.respond build m) u = (some (.ok ()),
      let c := connection settings d (restConfig d token) c.client
      { u with
        store := (u.store.secret d.secretNamespace d.spec.secretName).2
        journal := { u.journal with builds := u.journal.builds ++ [restConfig d token] }
        connections := u.connections.insert c.name c }) := by
    simp only [register, Program.act_bind, Program.runBy_call, hlook, connect, resolve, hs,
      if_false, Program.call_bind, hread, pure_bind, hconfig, hbuild]
    rfl
  exact ⟨_, _, hrun, hstore, rfl, by rw [hc]; rfl⟩

theorem registerAll_runBy (hm : m.sealed = none) (hds : ∀ d ∈ ds, Current settings build w d)
    (hdistinct : (ds.map (·.name)).Nodup) (hcalm : w.store.IsCalm)
    (hu : u.store.unlogged = w.store.unlogged)
    (hnew : ∀ d ∈ ds, u.connections.find? d.name = none) :
    ∃ u', (registerAll settings ds).runBy (World.respond build m) u = (some ds.length, u') ∧
      u'.store.unlogged = w.store.unlogged ∧
      (∀ d ∈ ds, (u'.connections.find? d.name).map (·.client) =
        (w.connections.find? d.name).map (·.client)) ∧
      ∀ name ∉ ds.map (·.name), u'.connections.find? name = u.connections.find? name := by
  induction ds generalizing u with
  | nil => exact ⟨u, rfl, hu, nofun, fun _ _ => rfl⟩
  | cons d ds ih =>
    obtain ⟨hd, hds⟩ := List.forall_mem_cons.1 hds
    obtain ⟨hnewd, hnew⟩ := List.forall_mem_cons.1 hnew
    obtain ⟨hother, hdistinct⟩ := List.nodup_cons.1 hdistinct
    obtain ⟨u₁, c, hrun, hu₁, hconnections, hclient⟩ := register_runBy hm hd hcalm hu hnewd
    have hne : ∀ name ≠ d.name, u₁.connections.find? name = u.connections.find? name := by
      intro name hn
      rw [hconnections]
      exact Table.find?_insert_of_ne hn ..
    have hnew₁ : ∀ d' ∈ ds, u₁.connections.find? d'.name = none := by
      intro d' hd'
      rw [hne _ fun he => hother (List.mem_map.2 ⟨d', hd', he⟩)]
      exact hnew d' hd'
    obtain ⟨u₂, hrun₂, hu₂, hsame, hkept⟩ := ih hds hdistinct hu₁ hnew₁
    refine ⟨u₂, ?_, hu₂, List.forall_mem_cons.2 ⟨?_, hsame⟩, fun name hn => ?_⟩
    · simp only [registerAll, Program.runBy_bind, hrun, hrun₂]
      rfl
    · -- No other one has this name, so that what was put under it stays.
      rw [hkept _ hother, hconnections, Table.find?_insert_self, hclient]
      rfl
    · simp only [List.map_cons, List.mem_cons, not_or] at hn
      rw [hkept _ hn.2, hne _ hn.1]

end

/-- The cache holds an entry for exactly what is stored, made from what is stored and secret now. -/
structure InStep (settings : RegistrationSettings) (w : World) (ds : List Descriptor) : Prop where
  listed : w.store.list.1 = .ok ds
  distinct : (ds.map (·.name)).Nodup
  cached : ∀ name, (w.connections.find? name).isSome ↔ name ∈ ds.map (·.name)
  present : ∀ d ∈ ds, ∀ c, w.connections.find? d.name = some c → agrees settings c d
  secret : ∀ d ∈ ds, ∀ c, w.connections.find? d.name = some c → ∃ data,
    (w.store.secret d.secretNamespace d.spec.secretName).1 = .ok (some data) ∧
      token? settings.tokenKey data = some c.restConfig.bearerToken

section
variable {settings : RegistrationSettings} {build : RestConfig → BuildOutcome} {w : World}
  {ds : List Descriptor}

/-- However an entry has come about, its client is what is built for the descriptor it is for. -/
theorem current_of_described {d d' : Descriptor} {c : Connection} (hn : c.name = d.name)
    (hdesc : Describes settings d' c) (hbuilt : build c.restConfig = .built c.client)
    (h : InStep settings w ds) (hd : d ∈ ds) (hc : w.connections.find? d.name = some c) :
    Current settings build w d := by
  obtain ⟨data, hdata, htoken⟩ := h.secret d hd c hc
  -- It was made for `d'`, but it agrees with `d`, so that `d` is configured in the same way.
  have hfits := hdesc.of_agrees hn (h.present d hd c hc)
  have hconfig : restConfig d c.restConfig.bearerToken = c.restConfig := by
    have hinsecure : d.skipsVerification = c.restConfig.insecure :=
      Bool.eq_iff_iff.2 (List.contains_iff_mem.trans hfits.insecure.symm)
    unfold restConfig
    rw [hinsecure, ← hfits.host]
    exact congrArg (fun ca => RestConfig.mk _ _ ca _) hfits.caData.symm
  exact ⟨c, data, c.restConfig.bearerToken, hc, hfits.secretName ▸ hfits.secretName_ne, hdata,
    htoken, hconfig ▸ hbuilt⟩

/--
A restart cannot be told from outside. Tasks have led to the cache in any order, with a factory
whose outcome is up to the configuration; then a new process that refreshes once registers all that
is stored, and any passes from then on end in the same way, use the same clients and leave the same
stored as they would without the restart.
-/
theorem sights_restarted {w₀ : World} {log : List (Event Call)} {s : Crew Call Unit}
    (hempty : w₀.connections = []) (hhook : ∀ h, w₀.hook = some h → h = .reload settings)
    (hrun : Crew.Run (Call.program settings) (.idle w₀) log s)
    (hbuild : ∀ i config r, .acted i (.buildClient config) r ∈ log → r = build config)
    (hw : w.connections = s.world.connections) (hcalm : w.store.IsCalm)
    (hstep : InStep settings w ds) {m : Moment} (hlists : m.unlisted = none)
    (hsecrets : m.sealed = none) :
    ∃ w', (refresh settings).runBy (World.respond build m) (restarted w) = (some ds.length, w') ∧
      ∀ interval visits, sights build interval w' visits = sights build interval w visits := by
  have hkept := kept_of_run hempty hhook hrun .here
  have hcurrent : ∀ d ∈ ds, Current settings build w d := by
    intro d hd
    obtain ⟨c, hc⟩ := Option.isSome_iff_exists.1 ((hstep.cached d.name).2 (List.mem_map_of_mem hd))
    obtain ⟨hn, hcoherent⟩ := hkept.entries _ (hw ▸ Table.mem_of_find? hc)
    obtain ⟨d', -, hdesc⟩ := hcoherent.described
    obtain ⟨i, hbuilt⟩ := hcoherent.built
    exact current_of_described hn hdesc (hbuild i _ _ hbuilt).symm hstep hd hc
  have hanswer : (restarted w).respond build m .listClusters =
      (.ok ds, { restarted w with store := w.store.list.2 }) := by
    have hlisted : (restarted w).store.list.1 = .ok ds := hstep.listed
    simp only [World.respond, hlists, World.ask, hlisted]
    rfl
  obtain ⟨w', hrun', hstore', hsame, hkept'⟩ := registerAll_runBy
    (u := { restarted w with store := w.store.list.2 }) hsecrets hcurrent hstep.distinct hcalm
    hcalm.unlogged_list fun _ _ => rfl
  refine ⟨w', ?_, fun interval visits => sights_congr (fun name => ?_) hstore' visits⟩
  · simp only [refresh, Program.act_bind, Program.runBy_call, hanswer, hrun']
  · by_cases hn : name ∈ ds.map (·.name)
    · obtain ⟨d, hd, rfl⟩ := List.mem_map.1 hn
      exact hsame d hd
    · have hnone : w.connections.find? name = none := by
        rw [← Option.not_isSome_iff_eq_none]
        exact fun hs => hn ((hstep.cached name).1 hs)
      rw [hkept' name hn, hnone]
      rfl

end

def west : Connection := connection {} newcomer (restConfig newcomer "secret") newcomerClient

/-- The token is stored with white space around it. -/
def settled : World where
  connections := [("west", west)]
  store := .memory {
    clusters := [("west", newcomer)]
    secrets := [("members/west-token", [("token", " secret ")])] }
  clock := { start := ⟨0, 0⟩ }

def buildDirect (config : RestConfig) : BuildOutcome := .built (ClientFactory.direct config)

theorem settled_run : ∃ log s, Crew.Run (Call.program {}) (.idle emptyWorld) log s ∧
    (∀ i config r, .acted i (.buildClient config) r ∈ log → r = buildDirect config) ∧
    s.world.connections = settled.connections := by
  have h₀ : Crew.Run (Call.program {}) (.idle emptyWorld) _ _ :=
    Crew.Run.here.step (.begins (i := 0) (.register newcomer) rfl)
  have h₁ := h₀.step (.acts (i := 0) (a := .lookUp "west") rfl (.cache rfl rfl))
  have h₂ := h₁.step (.acts (i := 0) (a := .readSecret "members" "west-token")
    (r := .ok (some [("token", " secret ")])) rfl (.outside nofun ⟨rfl, rfl, rfl, rfl⟩))
  have h₃ := h₂.step (.acts (i := 0) (a := .buildClient (restConfig newcomer "secret"))
    (r := buildDirect (restConfig newcomer "secret")) rfl (.outside nofun ⟨rfl, rfl, rfl, rfl⟩))
  have h₄ := h₃.step (.acts (i := 0) (a := .insert west) rfl (.cache rfl rfl))
  refine ⟨_, _, h₄, fun i config r h => ?_, rfl⟩
  simp only [List.mem_cons, List.not_mem_nil, or_false] at h
  rcases h with h | h | h | h | h <;> cases h
  rfl

theorem inStep_settled : InStep {} settled [newcomer] where
  listed := rfl
  distinct := by simp
  cached name := by
    have hname : newcomer.name = "west" := rfl
    by_cases hn : name = "west"
    · simp [settled, Table.find?, hname, hn]
    · have hne : (name == "west") = false := by simpa using hn
      simp [settled, Table.find?, List.lookup_cons, hname, hn, hne]
  present d hd c hc := by
    obtain rfl := List.mem_singleton.1 hd
    obtain rfl : west = c := Option.some.inj hc
    rfl
  secret d hd c hc := by
    obtain rfl := List.mem_singleton.1 hd
    obtain rfl : west = c := Option.some.inj hc
    exact ⟨_, rfl, rfl⟩

def unanswered : Moment := { answer := fun _ => .failed, reading := ⟨0, 0⟩ }

theorem sights_restarted_settled : InStep {} settled [newcomer] ∧
    ∃ w', (refresh {}).runBy (World.respond buildDirect unanswered) (restarted settled) =
        (some 1, w') ∧
      ∀ interval visits,
        sights buildDirect interval w' visits = sights buildDirect interval settled visits := by
  obtain ⟨log, s, hrun, hbuild, hconnections⟩ := settled_run
  have hhook : ∀ hook, emptyWorld.hook = some hook → hook = .reload {} := by
    intro hook hh
    simp [emptyWorld] at hh
  exact ⟨inStep_settled, sights_restarted rfl hhook hrun hbuild hconnections.symm trivial
    inStep_settled rfl rfl⟩

end ClusterFleet.Restart
