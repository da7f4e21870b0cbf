import ClusterFleet.Health.Pass
import ClusterFleet.Proofs.Registration.Refresh
import ClusterFleet.Proofs.Store.Mirror
import Mathlib.Data.Multiset.MapFold

namespace ClusterFleet
open Json

namespace StandIn

/-- One world keeps in memory what the other one keeps at a server. -/
structure Twins (watched : String) (w w' : World) : Prop where
  faultless : w.faults = {}
  filed : Filed w.connections
  apart : ∃ m s connections journal, w.store = .memory m ∧
    w' = { w with connections, store := .server s, journal } ∧
    (∀ name, w.connections.find? name = connections.find? name) ∧ Mirrors watched m s

/-- An action on which both worlds agree, and which makes sense to a server: the names in it are
those of objects. -/
def Permitted : Action → Prop
  | .findCluster name => IsObjectName name
  | .writeStatus name s => IsObjectName name ∧ s.IsProper
  | .readSecret ns name => IsObjectName ns ∧ IsObjectName name
  | .connections | .listClusters => False
  | _ => True

/-- Replies that tell a program the same. Why a status could not be written may differ. -/
def Same : (a : Action) → a.Reply → a.Reply → Prop
  | .findCluster _, r, r' => ∃ o o', r = .ok o ∧ r' = .ok o' ∧
      o'.map Descriptor.unversioned = o.map Descriptor.unversioned ∧
      ∀ d ∈ o, ∀ s ∈ d.status, s.IsProper
  | .writeStatus _ _, r, r' => r'.isOk = r.isOk
  | _, r, r' => r' = r

section
variable {watched : String} {w w' : World} {a : Action}

theorem Twins.perform (h : Twins watched w w') (ha : Permitted a) :
    Same a (w.perform a).1 (w'.perform a).1 ∧
      Twins watched (w.perform a).2 (w'.perform a).2 := by
  have hfiled : Filed (w.perform a).2.connections :=
    w.connections_perform a ▸ h.filed.leaves a
  obtain ⟨hf, -, m, s, connections, journal, hm, rfl, hc, hs⟩ := h
  cases a with
  | findCluster name =>
    obtain ⟨o, s', he, hs', hu, hp⟩ := hs.find ha
    simp only [World.perform, World.guarded, hf, hm, Store.find, he] at hfiled ⊢
    exact ⟨⟨_, _, rfl, rfl, hu, hp⟩, rfl, hfiled, m, s', _, _, rfl, rfl, hc, hs'⟩
  | writeStatus name st =>
    obtain ⟨r, s', he, hs', hr⟩ := hs.writeStatus ha.1 ha.2
    simp only [World.perform, World.writeStatus, hf, hm, Store.writeStatus, he] at hfiled ⊢
    exact ⟨hr, rfl, hfiled, _, s', _, _, rfl, rfl, hc, hs'⟩
  | readSecret ns name =>
    obtain ⟨s', he, hs'⟩ := hs.secret ha.1 ha.2
    simp only [World.perform, World.guarded, hf, hm, Store.secret, he] at hfiled ⊢
    exact ⟨rfl, rfl, hfiled, m, s', _, _, rfl, rfl, hc, hs'⟩
  | lookUp name => exact ⟨(hc name).symm, hf, hfiled, m, s, _, _, hm, rfl, hc, hs⟩
  | insert c =>
    exact ⟨rfl, hf, hfiled, m, s, _, _, hm, rfl,
      fun name => Action.find?_leaves_congr (hc name) (.insert c), hs⟩
  | erase other =>
    exact ⟨rfl, hf, hfiled, m, s, _, _, hm, rfl,
      fun name => Action.find?_leaves_congr (hc name) (.erase other), hs⟩
  | clear => exact ⟨rfl, hf, hfiled, m, s, _, _, hm, rfl, fun _ => rfl, hs⟩
  | connections => cases ha
  | listClusters => cases ha
  | _ => exact ⟨rfl, hf, hfiled, m, s, _, _, hm, rfl, hc, hs⟩

end

/-- As long as their replies are the same, both programs do the same and end in ways that belong
together. -/
inductive Echoes {α : Type} (R : α → α → Prop) : Program α → Program α → Prop
  | done {v v' : α} (h : R v v') : Echoes R (.done v) (.done v')
  | crash : Echoes R .crash .crash
  | call {a : Action} {next next' : a.Reply → Program α} (ha : Permitted a)
    (hn : ∀ r r', Same a r r' → Echoes R (next r) (next' r')) :
    Echoes R (.call a next) (.call a next')

section
variable {α β : Type} {R : α → α → Prop} {S : β → β → Prop} {p p' : Program α}
  {watched : String} {w w' : World}

theorem Echoes.bind (h : Echoes R p p') {f f' : α → Program β}
    (hf : ∀ v v', R v v' → Echoes S (f v) (f' v')) : Echoes S (p >>= f) (p' >>= f') := by
  induction h with
  | done h => exact hf _ _ h
  | crash => exact .crash
  | call ha _ ih => exact .call ha ih

def Ends (R : α → α → Prop) (o o' : Option α) : Prop :=
  (o = none ∧ o' = none) ∨ ∃ v v', o = some v ∧ o' = some v' ∧ R v v'

theorem Echoes.run (h : Echoes R p p') (hw : Twins watched w w') :
    Ends R (p.run w).1 (p'.run w').1 ∧ Twins watched (p.run w).2 (p'.run w').2 := by
  induction h generalizing w w' with
  | done h => exact ⟨.inr ⟨_, _, rfl, rfl, h⟩, hw⟩
  | crash => exact ⟨.inl ⟨rfl, rfl⟩, hw⟩
  | call ha _ ih =>
    obtain ⟨hr, hw⟩ := hw.perform ha
    exact ih _ _ hr hw

end

section
variable {settings : RegistrationSettings} {d : Descriptor}

theorem Echoes.of_eq {α : Type} {R : α → α → Prop} {a : Action} {next next' : a.Reply → Program α}
    (ha : Permitted a) (hs : ∀ r r', Same a r r' → r' = r)
    (hn : ∀ r, Echoes R (next r) (next' r)) : Echoes R (.call a next) (.call a next') := by
  refine .call ha fun r r' h => ?_
  obtain rfl := hs r r' h
  exact hn _

theorem echoes_unregister (name : String) :
    Echoes Eq (Registration.unregister name) (Registration.unregister name) :=
  .of_eq trivial (fun _ _ h => h) fun _ => .done rfl

theorem echoes_resolve (hd : d.IsPlain) :
    Echoes Eq (Registration.resolve settings d) (Registration.resolve settings d) := by
  unfold Registration.resolve
  split
  · exact .done rfl
  · next hs =>
    have hname := hd.secretName.resolve_left hs
    refine .of_eq ⟨hd.secretNamespace, hname⟩ (fun _ _ h => h) fun data => ?_
    cases data <;> exact .done rfl

theorem echoes_connect (hd : d.IsPlain) :
    Echoes Eq (Registration.connect settings d) (Registration.connect settings d) := by
  refine (echoes_resolve hd).bind fun r _ hr => ?_
  subst hr
  cases r with
  | error e => exact .done rfl
  | ok config =>
    refine .of_eq trivial (fun _ _ h => h) fun outcome => ?_
    cases outcome with
    | crashed => exact .crash
    | refused e => exact .done rfl
    | built client => exact .of_eq trivial (fun _ _ h => h) fun _ => .done rfl

theorem echoes_register (hd : d.IsPlain) :
    Echoes Eq (Registration.register settings d) (Registration.register settings d) := by
  refine .of_eq trivial (fun _ _ h => h) fun found => ?_
  cases found with
  | none => exact echoes_connect hd
  | some c =>
    show Echoes Eq (if _ then _ else _) (if _ then _ else _)
    split
    · exact .of_eq trivial (fun _ _ h => h) fun _ => .done rfl
    · exact echoes_connect hd

theorem echoes_registerAll (settings : RegistrationSettings) {ds : List Descriptor}
    (hds : ∀ d ∈ ds, d.IsPlain) :
    Echoes Eq (Registration.registerAll settings ds) (Registration.registerAll settings ds) := by
  induction ds with
  | nil => exact .done rfl
  | cons d ds ih =>
    obtain ⟨hd, hds⟩ := List.forall_mem_cons.1 hds
    refine (echoes_register hd).bind fun r _ hr => ?_
    subst hr
    refine (ih hds).bind fun n _ hn => ?_
    subst hn
    exact .done rfl

theorem resolve_unversioned (settings : RegistrationSettings) (d : Descriptor) :
    Registration.resolve settings d.unversioned = Registration.resolve settings d := by
  have hs : d.unversioned.spec.secretName = d.spec.secretName := rfl
  by_cases h : d.spec.secretName = ""
  · simp only [Registration.resolve, hs, h, if_true]
    rfl
  · simp only [Registration.resolve, hs, h, if_false, Program.act_bind]
    refine congrArg (Program.call (.readSecret d.secretNamespace d.spec.secretName))
      (funext fun data => ?_)
    cases data <;> rfl

theorem connect_unversioned (settings : RegistrationSettings) (d : Descriptor) :
    Registration.connect settings d.unversioned = Registration.connect settings d := by
  simp only [Registration.connect, resolve_unversioned, Program.act_bind]
  rfl

theorem register_unversioned (settings : RegistrationSettings) (d : Descriptor) :
    Registration.register settings d.unversioned = Registration.register settings d := by
  have ha (c : Connection) : Registration.agrees settings c d.unversioned =
      Registration.agrees settings c d := rfl
  simp only [Registration.register, connect_unversioned, Program.act_bind]
  refine congrArg (Program.call (.lookUp d.name)) (funext fun found => ?_)
  cases found with
  | none => rfl
  | some c =>
    simp only [ha]
    rfl

theorem registerAll_unversioned (settings : RegistrationSettings) (ds : List Descriptor) :
    Registration.registerAll settings (ds.map Descriptor.unversioned) =
      Registration.registerAll settings ds := by
  induction ds with
  | nil => rfl
  | cons d ds ih =>
    rw [List.map_cons, Registration.registerAll, register_unversioned, ih, Registration.registerAll]

end

theorem exists_run {α : Type} {p : Program α} (hp : Registration.Registers p) {w : World}
    {m : MemoryStore} (hm : w.store = .memory m) (hf : w.faults = {}) :
    ∃ connections journal, (p.run w).2 = { w with connections, journal } := by
  induction p generalizing w with
  | done v => exact ⟨w.connections, w.journal, rfl⟩
  | crash => exact ⟨w.connections, w.journal, rfl⟩
  | call a next ih =>
    -- No action of a registration changes more of a world than these two.
    obtain ⟨connections, journal, hw⟩ :
        ∃ connections journal, (w.perform a).2 = { w with connections, journal } := by
      obtain ⟨ha, -⟩ := hp
      cases a with
      | listClusters =>
        simp only [World.perform, World.guarded, hf, hm, Store.list]
        exact ⟨w.connections, w.journal, by rw [← hm, ← hf]⟩
      | readSecret ns name =>
        simp only [World.perform, World.guarded, hf, hm, Store.secret]
        exact ⟨w.connections, w.journal, by rw [← hm, ← hf]⟩
      | lookUp name => exact ⟨w.connections, w.journal, rfl⟩
      | insert c => exact ⟨_, w.journal, rfl⟩
      | buildClient config => exact ⟨w.connections, _, rfl⟩
      | _ => cases ha
    have hnext := ih (w.perform a).1 (hp.2 _) (w := (w.perform a).2) (by rw [hw]; exact hm)
      (by rw [hw]; exact hf)
    obtain ⟨connections', journal', hrun⟩ := hnext
    refine ⟨connections', journal', ?_⟩
    show ((next (w.perform a).1).run (w.perform a).2).2 = _
    rw [hrun, hw]

section
variable {settings : RegistrationSettings} {watched : String} {w w' : World}

/-- Descriptors in two orders, registered by a world with its store in memory. -/
theorem registerAll_run_perm (settings : RegistrationSettings) {m : MemoryStore}
    (hm : w.store = .memory m) (hf : w.faults = {}) (hfiled : Filed w.connections)
    {ds ds' : List Descriptor} (hnd : (ds.map (·.name)).Nodup) (hp : ds'.Perm ds) :
    ((Registration.registerAll settings ds').run w).1 =
        ((Registration.registerAll settings ds).run w).1 ∧
      (((Registration.registerAll settings ds).run w).1 ≠ none → ∃ connections journal,
        ((Registration.registerAll settings ds').run w).2 =
          { ((Registration.registerAll settings ds).run w).2 with connections, journal } ∧
        ∀ name, connections.find? name =
          ((Registration.registerAll settings ds).run w).2.connections.find? name) := by
  have hregisters := Registration.registers_registerAll settings
  obtain ⟨hrun, -⟩ := Registration.run_eq_runBy (hregisters ds) hm
  obtain ⟨hrun', -⟩ := Registration.run_eq_runBy (hregisters ds') hm
  obtain ⟨c, j, hw⟩ := exists_run (hregisters ds) hm hf
  obtain ⟨c', j', hw'⟩ := exists_run (hregisters ds') hm hf
  obtain ⟨hresult, hfind⟩ := Registration.registerAll_perm settings
    (o := Registration.Outside.ofWorld w) hfiled hnd hp
  rw [← hrun, ← hrun', hw, hw'] at hfind
  rw [← hrun, ← hrun'] at hresult
  refine ⟨hresult, fun h => ⟨c', j', ?_, ?_⟩⟩
  · rw [hw, hw']
  · rw [hw]
    exact hfind h

theorem Twins.withConnections (h : Twins watched w w') {connections : Table Connection}
    {journal : Journal} (hfiled : Filed connections)
    (hc : ∀ name, connections.find? name = w.connections.find? name) :
    Twins watched { w with connections, journal } w' := by
  obtain ⟨hf, -, m, s, connections', journal', hm, rfl, hc', hs⟩ := h
  exact ⟨hf, hfiled, m, s, connections', journal', hm, rfl, fun name => (hc name).trans (hc' name),
    hs⟩

/-- A refresh goes by another order in memory than at a server. -/
theorem Twins.refresh (h : Twins watched w w') (settings : RegistrationSettings) :
    ((Registration.refresh settings).run w').1 = ((Registration.refresh settings).run w).1 ∧
      (((Registration.refresh settings).run w).1 ≠ none →
        Twins watched ((Registration.refresh settings).run w).2
          ((Registration.refresh settings).run w').2) := by
  have htwins := h
  obtain ⟨hf, hfiled, m, s, connections, journal, hm, rfl, hc, hs⟩ := h
  obtain ⟨ds, s', he, hs', hu⟩ := hs.list
  let w₁ : World := { w with connections, store := .server s', journal }
  have hlisted : (Registration.refresh settings).run w =
      (Registration.registerAll settings m.list).run w := by
    simp only [Registration.refresh, Program.act_bind, Program.run, Program.runBy_call,
      World.perform, World.guarded, hf, hm, Store.list]
    rw [← hm, ← hf]
  have hlisted' : (Registration.refresh settings).run
      { w with connections, store := .server s, journal } =
      (Registration.registerAll settings m.clusters.values).run w₁ := by
    rw [← registerAll_unversioned settings m.clusters.values, ← hu, registerAll_unversioned]
    simp only [Registration.refresh, Program.act_bind, Program.run, Program.runBy_call,
      World.perform, World.guarded, hf, Store.list, he, w₁]
  have htwins₁ : Twins watched w w₁ := ⟨hf, hfiled, m, s', _, _, hm, rfl, hc, hs'⟩
  -- In the order of the server both do the same; the order of memory is another one.
  have hechoes := echoes_registerAll settings fun d hd => hs.isPlain hd
  obtain ⟨hends, hafter⟩ := hechoes.run htwins₁
  obtain ⟨hperm, hsame⟩ := registerAll_run_perm settings hm hf hfiled hs.distinct
    (m.layout.perm m.changes m.clusters.values)
  have hresult : ((Registration.registerAll settings m.clusters.values).run w₁).1 =
      ((Registration.registerAll settings m.clusters.values).run w).1 := by
    rcases hends with ⟨hn, hn'⟩ | ⟨n, _, hn, hn', rfl⟩
    · rw [hn, hn']
    · rw [hn, hn']
  rw [hlisted, hlisted', MemoryStore.list, hperm]
  refine ⟨hresult, fun hne => ?_⟩
  obtain ⟨connections', journal', hrun, hfind⟩ := hsame hne
  have hfiled' := World.filed_run hfiled (Registration.registerAll settings m.list)
  rw [MemoryStore.list, hrun] at hfiled'
  rw [hrun]
  exact hafter.withConnections hfiled' hfind

end

theorem isProper_record {new : Condition} {cs : List Condition} (hn : new.aspect.IsProper)
    (h : ∀ c ∈ cs, c.aspect.IsProper) (now : String) :
    ∀ c ∈ Condition.record now new cs, c.aspect.IsProper := by
  intro c hc
  have ha : c.aspect ∈ (Condition.record now new cs).map (·.aspect) := List.mem_map_of_mem hc
  have hold : c.aspect ∈ cs.map (·.aspect) → c.aspect.IsProper := by
    intro hm
    obtain ⟨old, ho, he⟩ := List.mem_map.1 hm
    exact he ▸ h old ho
  rw [Condition.map_aspect_record] at ha
  split at ha
  · exact hold ha
  · rcases List.mem_append.1 ha with ha | ha
    · exact hold ha
    · rw [List.mem_singleton.1 ha]
      exact hn

theorem isProper_merge {known observed : List Condition} (hk : ∀ c ∈ known, c.aspect.IsProper)
    (ho : ∀ c ∈ observed, c.aspect.IsProper) (now : Instant) :
    Status.IsProper ⟨Condition.merge known observed now⟩ := by
  show ∀ c ∈ Condition.recordAll (Time.rfc3339 now) known observed, c.aspect.IsProper
  induction observed generalizing known with
  | nil => exact hk
  | cons new rest ih =>
    obtain ⟨hn, hrest⟩ := List.forall_mem_cons.1 ho
    exact ih (isProper_record hn hk _) hrest

theorem isProper_observe (answer : Http.Answer) :
    ∀ c ∈ Health.observe answer, c.aspect.IsProper := by
  unfold Health.observe Health.classify
  split
  · simp [Health.offline, Condition.observed, Aspect.IsProper, Aspect.ofName, Aspect.name]
  · split <;> simp [Health.ready, Health.notReady, Health.reachable, Condition.observed,
      Aspect.IsProper, Aspect.ofName, Aspect.name]

/-- Why a status could not be written is left out. -/
def blurred : Except PassError PassOutcome → Except PassError PassOutcome
  | .error (.persistence name _) => .error (.persistence name (.notFound ""))
  | r => r

section
variable {name : String} {cs : List Condition} {d d' : Descriptor}

theorem echoes_persist (hn : IsObjectName name) (hcs : Status.IsProper ⟨cs⟩)
    (r : Except PassError PassOutcome) :
    Echoes (fun v v' => blurred v' = blurred v) (Health.persist name cs r)
      (Health.persist name cs r) := by
  refine .call ⟨hn, hcs⟩ fun written written' h => ?_
  cases written <;> cases written' <;> first | exact .done rfl | cases h

theorem conditions_of_unversioned (h : d'.unversioned = d.unversioned) :
    d'.conditions = d.conditions := by
  unfold Descriptor.conditions
  rw [Descriptor.status_of_unversioned h]

theorem echoes_pass (interval : Span) (hn : IsObjectName name) :
    Echoes (fun v v' => blurred v' = blurred v) (Health.pass interval name)
      (Health.pass interval name) := by
  refine .call hn ?_
  rintro _ _ ⟨o, o', rfl, rfl, hu, hp⟩
  cases o with
  | none =>
    cases o' with
    | none => exact .done rfl
    | some d' => cases hu
  | some d =>
    cases o' with
    | none => cases hu
    | some d' =>
      -- A pass looks at the conditions only, and these are the same in both descriptors.
      have hcs := conditions_of_unversioned (Option.some.inj hu)
      have hproper : ∀ c ∈ d.conditions, c.aspect.IsProper := by
        unfold Descriptor.conditions
        cases hs : d.status with
        | none => exact nofun
        | some st => exact hp d rfl st hs
      refine .of_eq trivial (fun _ _ h => h) fun found => ?_
      cases found with
      | none =>
        refine .of_eq trivial (fun _ _ h => h) fun now => ?_
        rw [hcs]
        have hkept : ∀ c ∈ d.conditions.filter (·.aspect = .offline), c.aspect.IsProper :=
          fun c hc => hproper c (List.mem_filter.1 hc).1
        exact echoes_persist hn (isProper_merge hkept (isProper_observe .failed) now) _
      | some c =>
        refine .of_eq trivial (fun _ _ h => h) fun answer => ?_
        refine .of_eq trivial (fun _ _ h => h) fun now => ?_
        rw [hcs]
        exact echoes_persist hn (isProper_merge hproper (isProper_observe answer) now) _

end

end StandIn

namespace Store

/-- Puts a descriptor's object into the store; memory keeps what it is read as. -/
def putObject (members : List Member) : Store → Store
  | .memory m => match Descriptor.ofJson? (sent (.obj members)) with
    | some d => .memory (m.put d)
    | none => .memory m
  | .server s => .server (s.put (.obj members))

def remove (name : String) : Store → Store
  | .memory m => .memory (m.remove name)
  | .server s => .server (s.remove name)

def putSecret (ns name : String) (j : Json) : Store → Store
  | .memory m => match Secret.ofJson? j.sent with
    | some data => .memory (m.putSecret ns name data)
    | none => .memory m
  | .server s => .server (s.putSecret ns name j)

def descriptor? (name : String) : Store → Option Descriptor
  | .memory m => m.find name
  | .server s => (s.cluster? name).bind fun j => Descriptor.ofJson? j.sent

theorem descriptor?_server {watched : String} {m : MemoryStore} {s : ApiServer}
    (h : Mirrors watched m s) (name : String) :
    ((Store.server s).descriptor? name).map Descriptor.unversioned =
      ((Store.memory m).descriptor? name).map Descriptor.unversioned := by
  rcases h.clusters.find? name with ⟨hm, hs⟩ | ⟨d, j, hm, hs, ht⟩
  · have hm' : m.find name = none := hm
    have hs' : s.cluster? name = none := hs
    simp only [descriptor?, hm', hs', Option.bind_none]
  · have hm' : m.find name = some d := hm
    have hs' : s.cluster? name = some j := hs
    obtain ⟨d', hd, hu⟩ := ht.reads
    simp only [descriptor?, hm', hs', Option.bind_some, hd, Option.map_some, hu]

end Store

namespace StandIn

inductive Chore where
  | put (members : List Member)
  | remove (name : String)
  | putSecret (ns name : String) (j : Json)
  | register (d : Descriptor)
  | unregister (name : String)
  | refresh
  | check (name : String)
  | writeStatus (name : String) (s : Status)

inductive Outcome where
  | nothing
  | registered (r : Except RegistrationError Unit)
  | refreshed (count : Nat)
  | checked (r : Except PassError PassOutcome)
  | written (r : Except StoreError Unit)

def Outcome.blurred : Outcome → Outcome
  | .checked r => .checked (StandIn.blurred r)
  | .written (.error _) => .written (.error (.notFound ""))
  | o => o

section
variable (settings : RegistrationSettings) (interval : Span)

/-- A chore by itself. One that crashes has no outcome. -/
def Chore.run (w : World) : Chore → Option Outcome × World
  | .put members => (some .nothing, { w with store := w.store.putObject members })
  | .remove name => (some .nothing, { w with store := w.store.remove name })
  | .putSecret ns name j => (some .nothing, { w with store := w.store.putSecret ns name j })
  | .register d =>
    let (r, w) := (Registration.register settings d).run w
    (r.map .registered, w)
  | .unregister name =>
    let (r, w) := (Registration.unregister name).run w
    (r.map fun _ => .nothing, w)
  | .refresh =>
    let (r, w) := (Registration.refresh settings).run w
    (r.map .refreshed, w)
  | .check name =>
    let (r, w) := (Health.pass interval name).run w
    (r.map .checked, w)
  | .writeStatus name s =>
    let (r, w) := w.writeStatus name s
    (some (.written r), w)

/-- What can be seen after a chore. Descriptors are seen without the versions that a server gives
them. -/
structure Sight where
  outcome : Outcome
  connection : String → Option Connection
  descriptor : String → Option Descriptor
  /-- In any order. -/
  listed : Except StoreError (Multiset Descriptor)

def sight (o : Outcome) (w : World) : Sight where
  outcome := o.blurred
  connection name := w.connections.find? name
  descriptor name := (w.store.descriptor? name).map Descriptor.unversioned
  listed := w.store.list.1.map fun ds => ds.map Descriptor.unversioned

def sights (w : World) : List Chore → List (Option Sight)
  | [] => []
  | c :: cs => match c.run settings interval w with
    | (some o, w) => some (sight o w) :: sights w cs
    | (none, _) => [none]

end

/--
A chore over descriptors of the namespace that is looked at, over objects and statuses that can be
read, and under names that objects can have.
-/
def Chore.Fits (watched : String) : Chore → Prop
  | .put members => ∃ d name, Descriptor.ofJson? (sent (.obj members)) = some d ∧
      d.metadata.name = some name ∧ d.LivesIn watched
  | .putSecret _ _ j => ∃ data, Secret.ofJson? j.sent = some data
  | .register d => d.LivesIn watched
  | .check name => IsObjectName name
  | .writeStatus name s => IsObjectName name ∧ ∃ j, Status.ofJson? j = some s
  | .remove _ | .unregister _ | .refresh => True

section
variable {settings : RegistrationSettings} {interval : Span} {watched : String} {w w' : World}

theorem Twins.isObjectName (h : Twins watched w w') : IsObjectName watched := by
  obtain ⟨-, -, m, s, connections, journal, -, -, -, hs⟩ := h
  exact hs.watched ▸ hs.plain.watched

theorem Twins.listed (h : Twins watched w w') :
    (w'.store.list.1.map fun ds => (ds.map Descriptor.unversioned : Multiset Descriptor)) =
      w.store.list.1.map fun ds => (ds.map Descriptor.unversioned : Multiset Descriptor) := by
  obtain ⟨-, -, m, s, connections, journal, hm, rfl, -, hs⟩ := h
  obtain ⟨ds, s', he, -, hu⟩ := hs.list
  have hperm := (m.layout.perm m.changes m.clusters.values).map Descriptor.unversioned
  simp only [Store.list, hm, he, Except.map, hu]
  exact congrArg Except.ok (Multiset.coe_eq_coe.2 hperm.symm)

theorem Twins.sight (h : Twins watched w w') {o o' : Outcome} (ho : o'.blurred = o.blurred) :
    sight o' w' = sight o w := by
  have hlisted := h.listed
  obtain ⟨-, -, m, s, connections, journal, hm, rfl, hc, hs⟩ := h
  have hdescriptor (name : String) := Store.descriptor?_server hs name
  unfold StandIn.sight
  rw [ho, hlisted, hm]
  exact (Sight.mk.injEq ..).mpr ⟨rfl, funext fun name => (hc name).symm, funext hdescriptor, rfl⟩

structure Alike (watched : String) (x x' : Option Outcome × World) : Prop where
  outcome : x'.1.map Outcome.blurred = x.1.map Outcome.blurred
  twins : x.1 ≠ none → Twins watched x.2 x'.2

theorem Echoes.chore {α : Type} {R : α → α → Prop} {p p' : Program α} (h : Echoes R p p')
    (hw : Twins watched w w') (outcome : α → Outcome)
    (ho : ∀ v v', R v v' → (outcome v').blurred = (outcome v).blurred) :
    Alike watched ((p.run w).1.map outcome, (p.run w).2)
      ((p'.run w').1.map outcome, (p'.run w').2) := by
  obtain ⟨hends, hw⟩ := h.run hw
  refine ⟨?_, fun _ => hw⟩
  rcases hends with ⟨hn, hn'⟩ | ⟨v, v', hv, hv', hr⟩
  · simp only [hn, hn']
  · simp only [hv, hv']
    exact congrArg some (ho v v' hr)

theorem Twins.chore (h : Twins watched w w') {c : Chore} (hc : c.Fits watched) :
    Alike watched (c.run settings interval w) (c.run settings interval w') := by
  cases c with
  | put members =>
    obtain ⟨hf, hfiled, m, s, connections, journal, hm, rfl, he, hs⟩ := h
    obtain ⟨d, name, hd, hn, hl⟩ := hc
    refine ⟨rfl, fun _ => ⟨hf, hfiled, m.put d, _, connections, journal, ?_, rfl, he,
      hs.put hd hn hl⟩⟩
    simp only [Chore.run, Store.putObject, hm, hd]
  | remove name =>
    obtain ⟨hf, hfiled, m, s, connections, journal, hm, rfl, he, hs⟩ := h
    refine ⟨rfl, fun _ => ⟨hf, hfiled, m.remove name, _, connections, journal, ?_, rfl, he,
      hs.remove name⟩⟩
    simp only [Chore.run, Store.remove, hm]
  | putSecret ns name j =>
    obtain ⟨hf, hfiled, m, s, connections, journal, hm, rfl, he, hs⟩ := h
    obtain ⟨data, hd⟩ := hc
    refine ⟨rfl, fun _ => ⟨hf, hfiled, m.putSecret ns name data, _, connections, journal, ?_, rfl,
      he, hs.putSecret hd⟩⟩
    simp only [Chore.run, Store.putSecret, hm, hd]
  | register d =>
    exact (echoes_register (hc.isPlain h.isObjectName)).chore h .registered fun _ _ hr => hr ▸ rfl
  | unregister name =>
    exact (echoes_unregister name).chore h (fun _ => .nothing) fun _ _ _ => rfl
  | refresh =>
    obtain ⟨hresult, htwins⟩ := h.refresh settings
    exact ⟨by simp only [Chore.run, hresult], fun hne => htwins (mt Option.map_eq_none_iff.2 hne)⟩
  | check name =>
    exact (echoes_pass interval hc).chore h .checked fun _ _ hr => congrArg Outcome.checked hr
  | writeStatus name st =>
    obtain ⟨hf, hfiled, m, s, connections, journal, hm, rfl, he, hs⟩ := h
    obtain ⟨hn, j, hj⟩ := hc
    obtain ⟨r, s', hw, hs', hr⟩ := hs.writeStatus hn (Status.isProper_ofJson? hj)
    simp only [Chore.run, World.writeStatus, hm, Store.writeStatus, hw]
    refine ⟨?_, fun _ => ⟨hf, hfiled, _, s', _, _, rfl, rfl, he, hs'⟩⟩
    -- Both writes succeed or both fail; why they fail is not compared.
    generalize (m.writeStatus name st).1 = r' at hr
    cases r <;> cases r' <;> first | rfl | cases hr

theorem Twins.sights (h : Twins watched w w') {cs : List Chore} (hcs : ∀ c ∈ cs, c.Fits watched) :
    sights settings interval w' cs = sights settings interval w cs := by
  induction cs generalizing w w' with
  | nil => rfl
  | cons c cs ih =>
    obtain ⟨hc, hcs⟩ := List.forall_mem_cons.1 hcs
    have halike : Alike watched (c.run settings interval w) (c.run settings interval w') :=
      h.chore hc
    simp only [StandIn.sights]
    generalize c.run settings interval w = x at halike ⊢
    generalize c.run settings interval w' = x' at halike ⊢
    match x, x', halike with
    | (none, _), (none, _), _ => rfl
    | (none, _), (some _, _), h => cases h.outcome
    | (some _, _), (none, _), h => cases h.outcome
    | (some o, w), (some o', w'), h =>
      have htwins : Twins watched w w' := h.twins (Option.some_ne_none o)
      exact List.cons_eq_cons.2 ⟨congrArg some (htwins.sight (Option.some.inj h.outcome)),
        ih htwins hcs⟩

end

/--
Chores look the same over a store in memory as over an API server, both of them empty at first, in
whatever order the former lists its descriptors: each has the same outcome in both worlds, but for
the reason why a status could not be written, and leaves the same connections and the same
descriptors, until the chores are done or the same one crashes in both.
-/
theorem sights_server_eq_memory (settings : RegistrationSettings) (interval : Span)
    {watched : String} (hwatched : IsObjectName watched) (layout : Layout) {w : World}
    (hw : w.faults = {}) (hfiled : Filed w.connections) {chores : List Chore}
    (hchores : ∀ c ∈ chores, c.Fits watched) :
    sights settings interval { w with store := .server { watched } } chores =
      sights settings interval { w with store := .memory { layout } } chores := by
  have htwins : Twins watched { w with store := .memory { layout } }
      { w with store := .server { watched } } :=
    ⟨hw, hfiled, { layout }, { watched }, w.connections, w.journal, rfl, rfl, fun _ => rfl,
      .empty hwatched layout⟩
  exact htwins.sights hchores

def object (name : String) : List Member :=
  [("metadata", .obj [("name", .str name), ("namespace", .str "members")]),
    ("spec", .obj [
      ("apiEndpoint", .str "https://host.example"),
      ("secretRef", .obj [("name", .str "token")])]),
    ("status", .null)]

def descriptor (name : String) : Descriptor where
  metadata := ⟨some name, none, some "members", none, []⟩
  spec := ⟨"https://host.example", none, "token", none⟩
  status := none

def tokenSecret : Json := .obj [("stringData", .obj [("token", .str "secret")])]

/-- Its condition has a reason that is `null`, and a type that nobody knows. -/
def westStatus : Json :=
  .obj [("conditions", .arr [
    .obj [("type", .str "Upgrading"), ("status", .str "True"), ("reason", .null)]])]

def upgrading : Status := ⟨[⟨.other "Upgrading", .yes, none, none, none, none⟩]⟩

def westChores : List Chore :=
  [.putSecret "members" "token" tokenSecret, .put (object "west"), .put (object "east"), .refresh,
    .check "west", .writeStatus "west" upgrading, .check "west", .remove "west",
    .writeStatus "west" upgrading, .check "west", .unregister "west"]

def bareWorld : World := { store := .memory {}, clock := { start := ⟨0, 0⟩ } }

def backwards : Layout := ⟨fun _ ds => ds.reverse, fun _ ds => ds.reverse_perm⟩

theorem fits_westChores : ∀ c ∈ westChores, c.Fits "members" := by
  have hname : IsObjectName "west" := by decide
  have hlives (name : String) : (descriptor name).LivesIn "members" :=
    ⟨by simp [descriptor], .inr (by decide : IsObjectName "token")⟩
  have hwest : Chore.Fits "members" (.put (object "west")) :=
    ⟨descriptor "west", "west", rfl, rfl, hlives "west"⟩
  have heast : Chore.Fits "members" (.put (object "east")) :=
    ⟨descriptor "east", "east", rfl, rfl, hlives "east"⟩
  have hsecret : Chore.Fits "members" (.putSecret "members" "token" tokenSecret) := ⟨_, rfl⟩
  have hstatus : Chore.Fits "members" (.writeStatus "west" upgrading) := ⟨hname, westStatus, rfl⟩
  simp only [westChores, List.forall_mem_cons]
  exact ⟨hsecret, hwest, heast, trivial, hname, hstatus, hname, trivial, hstatus, hname, trivial,
    nofun⟩

theorem sights_west : IsObjectName "members" ∧ bareWorld.faults = {} ∧
    Filed bareWorld.connections ∧ (∀ c ∈ westChores, c.Fits "members") ∧
    sights {} (.ofSeconds 10) { bareWorld with store := .server { watched := "members" } }
        westChores =
      sights {} (.ofSeconds 10) { bareWorld with store := .memory { layout := backwards } }
        westChores := by
  have hwatched : IsObjectName "members" := by decide
  exact ⟨hwatched, rfl, filed_nil, fits_westChores,
    sights_server_eq_memory {} (.ofSeconds 10) hwatched backwards rfl filed_nil fits_westChores⟩

end StandIn
end ClusterFleet
