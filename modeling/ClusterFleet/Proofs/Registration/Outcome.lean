import ClusterFleet.Proofs.Moment
import ClusterFleet.Proofs.Registration.Coherence
import ClusterFleet.Proofs.Trail
import Mathlib.Data.List.TakeWhile

namespace ClusterFleet

theorem Text.trim_eq_empty_iff {s : String} : trim s = "" ↔ ∀ c ∈ s.toList, isBlank c := by
  have hempty : trim s = "" ↔ trimChars s.toList = [] := by
    rw [trim, ← String.toList_inj, String.toList_ofList]
    rfl
  rw [hempty, trimChars, trimEndChars, List.reverse_eq_nil_iff, List.dropWhile_eq_nil_iff,
    trimStartChars]
  constructor
  · -- A text with anything else in it would begin with that once the blanks are dropped.
    intro h
    rw [← List.dropWhile_eq_nil_iff]
    cases hd : s.toList.dropWhile isBlank with
    | nil => rfl
    | cons c cs =>
      have hhead : c ∈ (s.toList.dropWhile isBlank).head? := by simp [hd]
      have hblank : isBlank c := h c (by simp [hd])
      exact absurd hblank (by simp [isBlank_of_mem_head? hhead])
  · intro h c hc
    exact h c ((List.dropWhile_sublist _).subset (List.mem_reverse.1 hc))

namespace Registration

structure Outside where
  secret : String → String → Except StoreError (Option SecretData)
  build : RestConfig → BuildOutcome
  listed : Except StoreError (List Descriptor) := .ok []

namespace Outside

/-- The cache does what is asked of it; all else is as the outside has it. -/
def handler (o : Outside) : Handler (Table Connection) := fun t a =>
  match a with
  | .lookUp name => (t.find? name, t)
  | .insert c => ((), t.insert c.name c)
  | .erase name => ((), t.erase name)
  | .clear => ((), [])
  | .connections => (t.values, t)
  | .listClusters => (o.listed, t)
  | .readSecret ns name => (o.secret ns name, t)
  | .buildClient config => (o.build config, t)
  | a => (a.blank, t)

def ofWorld (w : World) : Outside where
  secret ns name := w.faults.secret.elim (w.store.secret ns name).1 (.error ·.error)
  build := w.factory.build
  listed := w.faults.list.elim w.store.list.1 (.error ·.error)

end Outside

/-- What a registration, or many of them, may ask for. -/
def IsRegistering : Action → Prop
  | .lookUp _ | .insert _ | .listClusters | .readSecret _ _ | .buildClient _ => True
  | _ => False

def Registers {α : Type} : Program α → Prop
  | .done _ => True
  | .crash => True
  | .call a next => IsRegistering a ∧ ∀ r, Registers (next r)

theorem Registers.bind {α β : Type} {p : Program α} {f : α → Program β} (hp : Registers p)
    (hf : ∀ v, Registers (f v)) : Registers (p >>= f) := by
  induction p with
  | done v => exact hf v
  | crash => trivial
  | call a next ih => exact ⟨hp.1, fun r => ih r (hp.2 r)⟩

theorem registers_connect (settings : RegistrationSettings) (d : Descriptor) :
    Registers (connect settings d) := by
  by_cases hs : d.spec.secretName = ""
  · simp only [connect, resolve, hs, if_true, pure_bind]
    trivial
  · simp only [connect, resolve, hs, if_false, Program.act_bind, Program.call_bind]
    refine ⟨trivial, fun data => ?_⟩
    cases data with
    | error e => trivial
    | ok data =>
      simp only [pure_bind]
      cases fromSecret settings d data with
      | error e => trivial
      | ok config =>
        refine ⟨trivial, fun outcome => ?_⟩
        cases outcome with
        | built client => exact ⟨trivial, fun _ => trivial⟩
        | _ => trivial

theorem registers_register (settings : RegistrationSettings) (d : Descriptor) :
    Registers (register settings d) := by
  simp only [register, Program.act_bind]
  refine ⟨trivial, fun c => ?_⟩
  cases c with
  | none => exact registers_connect settings d
  | some c =>
    by_cases ha : agrees settings c d
    · simp only [ha, if_true]
      exact ⟨trivial, fun _ => trivial⟩
    · simp only [ha, Bool.false_eq_true, if_false]
      exact registers_connect settings d

theorem registers_registerAll (settings : RegistrationSettings) (ds : List Descriptor) :
    Registers (registerAll settings ds) := by
  induction ds with
  | nil => trivial
  | cons d ds ih =>
    exact (registers_register settings d).bind fun _ => ih.bind fun _ => trivial

theorem registers_refresh (settings : RegistrationSettings) : Registers (refresh settings) := by
  refine ⟨trivial, fun listed => ?_⟩
  cases listed with
  | error e => trivial
  | ok ds => exact registers_registerAll settings ds

theorem perform_eq_handler {a : Action} (ha : IsRegistering a) {w : World} {m : MemoryStore}
    (hm : w.store = .memory m) :
    ((w.perform a).1, (w.perform a).2.connections) =
        (Outside.ofWorld w).handler w.connections a ∧
      (w.perform a).2.store = w.store ∧ Outside.ofWorld (w.perform a).2 = Outside.ofWorld w := by
  have hguarded : ∀ {α : Type} (fault : Option Fault) (call : Store → Except StoreError α × Store),
      (call w.store).2 = w.store → (w.guarded fault call).1 =
        fault.elim (call w.store).1 (.error ·.error) ∧ (w.guarded fault call).2 = w := by
    intro α fault call hcall
    cases fault with
    | some f => exact ⟨rfl, rfl⟩
    | none => exact ⟨rfl, congrArg (fun s => { w with store := s }) hcall⟩
  cases a with
  | listClusters =>
    obtain ⟨hr, hw⟩ := hguarded w.faults.list Store.list (by rw [hm]; rfl)
    exact ⟨Prod.ext hr (congrArg World.connections hw), congrArg World.store hw,
      congrArg Outside.ofWorld hw⟩
  | readSecret ns name =>
    obtain ⟨hr, hw⟩ := hguarded w.faults.secret (Store.secret ns name) (by rw [hm]; rfl)
    exact ⟨Prod.ext hr (congrArg World.connections hw), congrArg World.store hw,
      congrArg Outside.ofWorld hw⟩
  | lookUp name => exact ⟨rfl, rfl, rfl⟩
  | insert c => exact ⟨rfl, rfl, rfl⟩
  | buildClient config => exact ⟨rfl, rfl, rfl⟩
  | _ => cases ha

/-- With its stores in memory, a world answers as its outside does. -/
theorem run_eq_runBy {α : Type} {p : Program α} (hp : Registers p) {w : World} {m : MemoryStore}
    (hm : w.store = .memory m) :
    ((p.run w).1, (p.run w).2.connections) = p.runBy (Outside.ofWorld w).handler w.connections ∧
      p.transcript World.perform w = p.transcript (Outside.ofWorld w).handler w.connections := by
  induction p generalizing w with
  | done v => exact ⟨rfl, rfl⟩
  | crash => exact ⟨rfl, rfl⟩
  | call a next ih =>
    obtain ⟨hreply, hstore, ho⟩ := perform_eq_handler hp.1 hm
    obtain ⟨hrun, htranscript⟩ := ih (w.perform a).1 (hp.2 _) (hstore.trans hm)
    rw [ho] at hrun htranscript
    rw [Program.runBy_call, Program.transcript_call, Program.transcript_call, ← hreply, ← hrun,
      ← htranscript]
    exact ⟨rfl, rfl⟩

/-- The connection is the one that the descriptor asks for. -/
structure Fits (settings : RegistrationSettings) (d : Descriptor) (c : Connection) : Prop where
  apiEndpoint : c.apiEndpoint = d.spec.apiEndpoint
  secretName : c.secretName = d.spec.secretName
  insecure : c.restConfig.insecure ↔ "*" ∈ d.spec.disabledValidations.getD []
  caData : c.restConfig.caData = d.spec.caBundle.filter (· ≠ "")
  operatorNamespace : c.operatorNamespace =
    (d.label? Descriptor.namespaceLabel).getD settings.defaultOperatorNamespace
  owner : c.owner = (d.label? Descriptor.ownerLabel).getD ""

/-- The secret of the cluster holds this token, with white space around it or not. -/
structure Holds (settings : RegistrationSettings) (o : Outside) (d : Descriptor) (token : String) :
    Prop where
  secretName : d.spec.secretName ≠ ""
  token : ∃ data text, o.secret d.secretNamespace d.spec.secretName = .ok (some data) ∧
    data.find? settings.tokenKey = some text ∧ (∃ c ∈ text.toList, Text.isBlank c = false) ∧
    token = Text.trim text

/-- Nothing but white space, if anything, is under the key of the token. -/
def IsTokenless (settings : RegistrationSettings) (data : SecretData) : Prop :=
  ∀ text ∈ data.find? settings.tokenKey, ∀ c ∈ text.toList, Text.isBlank c

/--
How a registration goes, from the entry that is there under the name of the descriptor: what is done
on the way, and the new entry or why there is none. Without either, it has crashed.
-/
inductive Goes (settings : RegistrationSettings) (o : Outside) (d : Descriptor) :
    Option Connection → List Action → Option (Except RegistrationError Connection) → Prop
  | kept {c : Connection} (hc : Fits settings d c) :
    Goes settings o d (some c) [.lookUp d.name, .insert { c with status := d.status.getD .empty }]
      (some (.ok { c with status := d.status.getD .empty }))
  | unnamed {e : Option Connection} (he : ∀ c ∈ e, ¬Fits settings d c)
    (hs : d.spec.secretName = "") :
    Goes settings o d e [.lookUp d.name] (some (.error (.credentials d.name .noSecretRef)))
  | unread {e : Option Connection} (he : ∀ c ∈ e, ¬Fits settings d c)
    (hs : d.spec.secretName ≠ "") {x : StoreError}
    (hx : o.secret d.secretNamespace d.spec.secretName = .error x) :
    Goes settings o d e [.lookUp d.name, .readSecret d.secretNamespace d.spec.secretName]
      (some (.error (.store x)))
  | absent {e : Option Connection} (he : ∀ c ∈ e, ¬Fits settings d c)
    (hs : d.spec.secretName ≠ "")
    (hx : o.secret d.secretNamespace d.spec.secretName = .ok none) :
    Goes settings o d e [.lookUp d.name, .readSecret d.secretNamespace d.spec.secretName]
      (some (.error (.credentials d.name (.noSecret d.secretNamespace d.spec.secretName))))
  | tokenless {e : Option Connection} (he : ∀ c ∈ e, ¬Fits settings d c)
    (hs : d.spec.secretName ≠ "") {data : SecretData}
    (hx : o.secret d.secretNamespace d.spec.secretName = .ok (some data))
    (ht : IsTokenless settings data) :
    Goes settings o d e [.lookUp d.name, .readSecret d.secretNamespace d.spec.secretName]
      (some (.error (.credentials d.name
        (.noEntry d.secretNamespace d.spec.secretName settings.tokenKey))))
  | refused {e : Option Connection} (he : ∀ c ∈ e, ¬Fits settings d c) {token : String}
    (ht : Holds settings o d token) {x : ClientBuildError}
    (hx : o.build (restConfig d token) = .refused x) :
    Goes settings o d e [.lookUp d.name, .readSecret d.secretNamespace d.spec.secretName,
      .buildClient (restConfig d token)] (some (.error (.client d.name x)))
  | crashed {e : Option Connection} (he : ∀ c ∈ e, ¬Fits settings d c) {token : String}
    (ht : Holds settings o d token) (hx : o.build (restConfig d token) = .crashed) :
    Goes settings o d e [.lookUp d.name, .readSecret d.secretNamespace d.spec.secretName,
      .buildClient (restConfig d token)] none
  | opened {e : Option Connection} (he : ∀ c ∈ e, ¬Fits settings d c) {token : String}
    (ht : Holds settings o d token) {client : Client}
    (hx : o.build (restConfig d token) = .built client) :
    Goes settings o d e [.lookUp d.name, .readSecret d.secretNamespace d.spec.secretName,
      .buildClient (restConfig d token),
      .insert (connection settings d (restConfig d token) client)]
      (some (.ok (connection settings d (restConfig d token) client)))

/-- What becomes of a cache by a new entry, or by an error. -/
def left (t : Table Connection) : Option (Except RegistrationError Connection) → Table Connection
  | some (.ok c) => t.insert c.name c
  | _ => t

def Outside.actions {α : Type} (o : Outside) (p : Program α) (t : Table Connection) : List Action :=
  (p.transcript o.handler t).map (·.action)

section
variable {settings : RegistrationSettings} {o : Outside} {d : Descriptor} {c : Connection}
  {t : Table Connection} {token : String} {data : SecretData} {e : Option Connection}
  {as as' : List Action} {r r' : Option (Except RegistrationError Connection)}

theorem agrees_iff : agrees settings c d ↔ Fits settings d c := by
  simp only [agrees, Bool.and_eq_true, decide_eq_true_eq]
  constructor
  · rintro ⟨⟨⟨⟨⟨he, hs⟩, hi⟩, hc⟩, ho⟩, hw⟩
    exact ⟨he, hs, by rw [hi]; exact List.contains_iff_mem, hc, ho, hw⟩
  · rintro ⟨he, hs, hi, hc, ho, hw⟩
    exact ⟨⟨⟨⟨⟨he, hs⟩, Bool.eq_iff_iff.2 (hi.trans List.contains_iff_mem.symm)⟩, hc⟩, ho⟩, hw⟩

theorem fits_connection (settings : RegistrationSettings) (d : Descriptor) (token : String)
    (client : Client) : Fits settings d (connection settings d (restConfig d token) client) :=
  ⟨rfl, rfl, List.contains_iff_mem, rfl, rfl, rfl⟩

theorem token?_eq_none_iff : token? settings.tokenKey data = none ↔ IsTokenless settings data := by
  unfold token? IsTokenless
  cases data.find? settings.tokenKey with
  | none => simp
  | some text => simp [Option.filter, Text.trim_eq_empty_iff]

theorem token?_eq_some_iff : token? settings.tokenKey data = some token ↔
    ∃ text, data.find? settings.tokenKey = some text ∧
      (∃ c ∈ text.toList, Text.isBlank c = false) ∧ token = Text.trim text := by
  have hblank (text : String) :
      Text.trim text ≠ "" ↔ ∃ c ∈ text.toList, Text.isBlank c = false := by
    simp [Text.trim_eq_empty_iff]
  simp only [token?, Option.filter_eq_some_iff, Option.map_eq_some_iff, decide_eq_true_eq]
  constructor
  · rintro ⟨⟨text, hf, rfl⟩, hne⟩
    exact ⟨text, hf, (hblank text).1 hne, rfl⟩
  · rintro ⟨text, hf, ht, rfl⟩
    exact ⟨⟨text, hf, rfl⟩, (hblank text).2 ht⟩

theorem goes_connect (he : ∀ c ∈ e, ¬Fits settings d c) : ∃ r,
    Goes settings o d e (.lookUp d.name :: o.actions (connect settings d) t) r ∧
      (connect settings d).runBy o.handler t = (r.map (·.map fun _ => ()), left t r) := by
  by_cases hs : d.spec.secretName = ""
  · simp only [Outside.actions, connect, resolve, hs, if_true, pure_bind]
    exact ⟨_, .unnamed he hs, rfl⟩
  · simp only [Outside.actions, connect, resolve, hs, if_false, Program.act_bind,
      Program.call_bind, Program.transcript_call, Program.runBy_call, Outside.handler]
    cases hx : o.secret d.secretNamespace d.spec.secretName with
    | error x => exact ⟨_, .unread he hs hx, rfl⟩
    | ok data =>
      cases data with
      | none => exact ⟨_, .absent he hs hx, rfl⟩
      | some data =>
        simp only [pure_bind, fromSecret]
        cases ht : token? settings.tokenKey data with
        | none => exact ⟨_, .tokenless he hs hx (token?_eq_none_iff.1 ht), rfl⟩
        | some token =>
          obtain ⟨text, hf, hb, htrim⟩ := token?_eq_some_iff.1 ht
          have hholds : Holds settings o d token := ⟨hs, data, text, hx, hf, hb, htrim⟩
          simp only [Program.transcript_call, Program.runBy_call, Outside.handler]
          cases hb : o.build (restConfig d token) with
          | crashed => exact ⟨_, .crashed he hholds hb, rfl⟩
          | refused x => exact ⟨_, .refused he hholds hb, rfl⟩
          | built client => exact ⟨_, .opened he hholds hb, rfl⟩

theorem goes_register (settings : RegistrationSettings) (o : Outside) (d : Descriptor)
    (t : Table Connection) : ∃ r,
    Goes settings o d (t.find? d.name) (o.actions (register settings d) t) r ∧
      (register settings d).runBy o.handler t = (r.map (·.map fun _ => ()), left t r) := by
  simp only [Outside.actions, register, Program.act_bind, Program.transcript_call,
    Program.runBy_call, Outside.handler]
  cases he : t.find? d.name with
  | none => exact goes_connect (by simp)
  | some c =>
    by_cases hc : agrees settings c d
    · simp only [hc, if_true]
      exact ⟨_, .kept (agrees_iff.1 hc), rfl⟩
    · have hne : ∀ c' ∈ some c, ¬Fits settings d c' := by
        rintro c' ⟨⟩
        exact mt agrees_iff.2 hc
      simp only [hc, Bool.false_eq_true, if_false]
      exact goes_connect hne

theorem goes_of_ok (hok : ((register settings d).runBy o.handler t).1 = some (.ok ())) : ∃ c,
    Goes settings o d (t.find? d.name) (o.actions (register settings d) t) (some (.ok c)) ∧
      (register settings d).runBy o.handler t = (some (.ok ()), t.insert c.name c) := by
  obtain ⟨r, hg, hrun⟩ := goes_register settings o d t
  rw [hrun] at hok
  rcases r with _ | x | c
  · cases hok
  · cases hok
  · exact ⟨c, hg, hrun⟩

theorem Holds.unique (h : Holds settings o d token) {token' : String}
    (h' : Holds settings o d token') : token = token' := by
  obtain ⟨data, text, hx, hf, _, rfl⟩ := h.token
  obtain ⟨data', text', hx', hf', _, rfl⟩ := h'.token
  cases hx.symm.trans hx'
  cases hf.symm.trans hf'
  rfl

theorem Holds.resolved (h : Holds settings o d token) :
    d.spec.secretName ≠ "" ∧ ∃ data, ¬IsTokenless settings data ∧
      o.secret d.secretNamespace d.spec.secretName = .ok (some data) := by
  obtain ⟨data, text, hx, hf, ⟨c, hc, hb⟩, _⟩ := h.token
  refine ⟨h.secretName, data, fun ht => ?_, hx⟩
  simp [ht text hf c hc] at hb

/-- With a token to be had, all is up to the factory. -/
theorem Goes.of_holds (h : Goes settings o d e as r) (he : ∀ c ∈ e, ¬Fits settings d c)
    (ht : Holds settings o d token) :
    as = [.lookUp d.name, .readSecret d.secretNamespace d.spec.secretName,
        .buildClient (restConfig d token)] ++ (match o.build (restConfig d token) with
          | .built client => [.insert (connection settings d (restConfig d token) client)]
          | _ => []) ∧
      r = match o.build (restConfig d token) with
        | .refused x => some (.error (.client d.name x))
        | .crashed => none
        | .built client => some (.ok (connection settings d (restConfig d token) client)) := by
  obtain ⟨hs, data, hsome, hx⟩ := ht.resolved
  cases h with
  | kept hc => exact absurd hc (he _ rfl)
  | unnamed _ hs' => exact absurd hs' hs
  | unread _ _ hx' | absent _ _ hx' => cases hx.symm.trans hx'
  | tokenless _ _ hx' hnone =>
    cases hx.symm.trans hx'
    exact absurd hnone hsome
  | refused _ ht' hb | crashed _ ht' hb | opened _ ht' hb =>
    cases ht.unique ht'
    rw [hb]
    exact ⟨rfl, rfl⟩

/-- There is just one way in which a registration goes. -/
theorem Goes.unique (h : Goes settings o d e as r) (h' : Goes settings o d e as' r') :
    as = as' ∧ r = r' := by
  -- Any two ways ask for something else to be cached, to be secret or to be built.
  cases h with
  | kept hc =>
    cases h' with
    | kept _ => exact ⟨rfl, rfl⟩
    | unnamed he | unread he | absent he | tokenless he | refused he | crashed he | opened he =>
      exact absurd hc (he _ rfl)
  | unnamed he hs =>
    cases h' with
    | kept hc => exact absurd hc (he _ rfl)
    | unnamed _ _ => exact ⟨rfl, rfl⟩
    | unread _ hs' | absent _ hs' | tokenless _ hs' => exact absurd hs hs'
    | refused _ ht | crashed _ ht | opened _ ht => exact absurd hs ht.secretName
  | unread he hs hx =>
    cases h' with
    | kept hc => exact absurd hc (he _ rfl)
    | unnamed _ hs' => exact absurd hs' hs
    | unread _ _ hx' =>
      cases hx.symm.trans hx'
      exact ⟨rfl, rfl⟩
    | absent _ _ hx' | tokenless _ _ hx' => cases hx.symm.trans hx'
    | refused _ ht | crashed _ ht | opened _ ht =>
      obtain ⟨-, data, -, hx'⟩ := ht.resolved
      cases hx.symm.trans hx'
  | absent he hs hx =>
    cases h' with
    | kept hc => exact absurd hc (he _ rfl)
    | unnamed _ hs' => exact absurd hs' hs
    | absent _ _ _ => exact ⟨rfl, rfl⟩
    | unread _ _ hx' | tokenless _ _ hx' => cases hx.symm.trans hx'
    | refused _ ht | crashed _ ht | opened _ ht =>
      obtain ⟨-, data, -, hx'⟩ := ht.resolved
      cases hx.symm.trans hx'
  | tokenless he hs hx hnone =>
    cases h' with
    | kept hc => exact absurd hc (he _ rfl)
    | unnamed _ hs' => exact absurd hs' hs
    | tokenless _ _ _ _ => exact ⟨rfl, rfl⟩
    | unread _ _ hx' | absent _ _ hx' => cases hx.symm.trans hx'
    | refused _ ht | crashed _ ht | opened _ ht =>
      obtain ⟨-, data, hsome, hx'⟩ := ht.resolved
      cases hx.symm.trans hx'
      exact absurd hnone hsome
  | refused he ht hb | crashed he ht hb | opened he ht hb =>
    obtain ⟨has, hr⟩ := h'.of_holds he ht
    rw [hb] at has hr
    exact ⟨has.symm, hr.symm⟩

/-- A registration goes by the entry under its name, and by nothing else in the cache. -/
theorem Goes.run (h : Goes settings o d e as r) (he : t.find? d.name = e) :
    o.actions (register settings d) t = as ∧
      (register settings d).runBy o.handler t = (r.map (·.map fun _ => ()), left t r) := by
  obtain ⟨r', hg, hrun⟩ := goes_register settings o d t
  obtain ⟨has, rfl⟩ := (he ▸ hg).unique h
  exact ⟨has, hrun⟩

theorem Goes.kept_or_opened (h : Goes settings o d e as (some (.ok c))) :
    (∃ c', e = some c' ∧ c = { c' with status := d.status.getD .empty }) ∨
      ∃ token client, Holds settings o d token ∧
        c = connection settings d (restConfig d token) client := by
  cases h with
  | kept => exact .inl ⟨_, rfl, rfl⟩
  | opened _ ht _ => exact .inr ⟨_, _, ht, rfl⟩

theorem Goes.name (h : Goes settings o d e as (some (.ok c))) (he : ∀ c ∈ e, c.name = d.name) :
    c.name = d.name := by
  cases h with
  | @kept c hc => exact he c rfl
  | opened => rfl

theorem Goes.fits (h : Goes settings o d e as (some (.ok c))) : Fits settings d c := by
  cases h with
  | kept hc => exact ⟨hc.1, hc.2, hc.3, hc.4, hc.5, hc.6⟩
  | opened => exact fits_connection ..

end

/-- Nothing but the entry under the name is new, and only if the registration has succeeded. -/
structure Touches (name : String) (t : Table Connection)
    (out : Option (Except RegistrationError Unit) × Table Connection) : Prop where
  kept : out.1 ≠ some (.ok ()) → out.2 = t
  present : out.1 = some (.ok ()) → (out.2.find? name).isSome
  others : ∀ n ≠ name, out.2.find? n = t.find? n

/-- What is done to open a connection: one step after the other, as far as there is reason to. -/
structure Asks (settings : RegistrationSettings) (o : Outside) (d : Descriptor)
    (as : List Action) : Prop where
  order : ∃ config c, as <+: [.lookUp d.name, .readSecret d.secretNamespace d.spec.secretName,
    .buildClient config, .insert c]
  secret : ∀ ns name, .readSecret ns name ∈ as → d.spec.secretName ≠ ""
  client : ∀ config, .buildClient config ∈ as →
    ∃ token, Holds settings o d token ∧ config = restConfig d token

/-- How the opening of a connection ends: in each way just when there is reason to. An error is
about the descriptor, and the entry is the new one. -/
structure Ends (settings : RegistrationSettings) (o : Outside) (d : Descriptor)
    (out : Option (Except RegistrationError Unit) × Table Connection) : Prop where
  credentials (name : String) : (∃ cause, out.1 = some (.error (.credentials name cause))) ↔
    name = d.name ∧
      (d.spec.secretName = "" ∨ o.secret d.secretNamespace d.spec.secretName = .ok none ∨
        ∃ data, o.secret d.secretNamespace d.spec.secretName = .ok (some data) ∧
          IsTokenless settings data)
  store (x : StoreError) : out.1 = some (.error (.store x)) ↔
    d.spec.secretName ≠ "" ∧ o.secret d.secretNamespace d.spec.secretName = .error x
  client (name : String) (x : ClientBuildError) : out.1 = some (.error (.client name x)) ↔
    name = d.name ∧
      ∃ token, Holds settings o d token ∧ o.build (restConfig d token) = .refused x
  crash : out.1 = none ↔ ∃ token, Holds settings o d token ∧ o.build (restConfig d token) = .crashed
  success : out.1 = some (.ok ()) ↔
    ∃ token client, Holds settings o d token ∧ o.build (restConfig d token) = .built client
  opened (token : String) (client : Client) (ht : Holds settings o d token)
    (hx : o.build (restConfig d token) = .built client) :
    out.2.find? d.name = some (connection settings d (restConfig d token) client)

section
variable {settings : RegistrationSettings} {o : Outside} {d : Descriptor} {c : Connection}
  {t : Table Connection} {e : Option Connection}
  {as : List Action} {r : Option (Except RegistrationError Connection)}

theorem filed_runBy {α : Type} (h : Filed t) (p : Program α) :
    Filed (p.runBy o.handler t).2 := by
  induction p generalizing t with
  | done v => exact h
  | crash => exact h
  | call a next ih =>
    have hleaves : (o.handler t a).2 = a.leaves t := by cases a <;> rfl
    exact ih _ (hleaves ▸ h.leaves a)

theorem Goes.touches (h : Goes settings o d e as r) (he : ∀ c ∈ e, c.name = d.name) :
    Touches d.name t (r.map (·.map fun _ => ()), left t r) := by
  rcases r with _ | x | c
  · exact ⟨fun _ => rfl, nofun, fun _ _ => rfl⟩
  · exact ⟨fun _ => rfl, nofun, fun _ _ => rfl⟩
  · have hn := h.name he
    refine ⟨fun hne => absurd rfl hne, fun _ => ?_, fun n hne => ?_⟩
    · simp [left, hn, Table.find?_insert_self]
    · exact Table.find?_insert_of_ne (hn ▸ hne) c t

theorem Goes.asks (h : Goes settings o d e as r) (he : ∀ c ∈ e, ¬Fits settings d c) :
    Asks settings o d as := by
  let config := restConfig d ""
  let c := connection settings d config (ClientFactory.direct config)
  have hclient {token : String} (ht : Holds settings o d token) {config' : RestConfig}
      (hc : config' = restConfig d token) :
      ∃ token, Holds settings o d token ∧ config' = restConfig d token := ⟨token, ht, hc⟩
  cases h with
  | kept hc => exact absurd hc (he _ rfl)
  | unnamed => exact ⟨⟨config, c, by simp⟩, by simp, by simp⟩
  | unread _ hs => exact ⟨⟨config, c, by simp⟩, fun _ _ _ => hs, by simp⟩
  | absent _ hs => exact ⟨⟨config, c, by simp⟩, fun _ _ _ => hs, by simp⟩
  | tokenless _ hs => exact ⟨⟨config, c, by simp⟩, fun _ _ _ => hs, by simp⟩
  | refused _ ht =>
    exact ⟨⟨_, c, by simp; rfl⟩, fun _ _ _ => ht.secretName,
      fun _ hb => hclient ht (by simpa using hb)⟩
  | crashed _ ht =>
    exact ⟨⟨_, c, by simp; rfl⟩, fun _ _ _ => ht.secretName,
      fun _ hb => hclient ht (by simpa using hb)⟩
  | opened _ ht =>
    exact ⟨⟨_, _, List.prefix_rfl⟩, fun _ _ _ => ht.secretName,
      fun _ hb => hclient ht (by simpa using hb)⟩

theorem Goes.credentials_iff (h : Goes settings o d e as r) (he : ∀ c ∈ e, ¬Fits settings d c)
    {name : String} : (∃ cause, r = some (.error (.credentials name cause))) ↔
      name = d.name ∧
        (d.spec.secretName = "" ∨ o.secret d.secretNamespace d.spec.secretName = .ok none ∨
          ∃ data, o.secret d.secretNamespace d.spec.secretName = .ok (some data) ∧
            IsTokenless settings data) := by
  constructor
  · rintro ⟨cause, rfl⟩
    cases h with
    | unnamed _ hs => exact ⟨rfl, .inl hs⟩
    | absent _ _ hx => exact ⟨rfl, .inr (.inl hx)⟩
    | tokenless _ _ hx ht => exact ⟨rfl, .inr (.inr ⟨_, hx, ht⟩)⟩
  · rintro ⟨rfl, hreason⟩
    by_cases hs : d.spec.secretName = ""
    · exact ⟨_, (h.unique (.unnamed he hs)).2⟩
    · rcases hreason with hs' | hx | ⟨data, hx, ht⟩
      · exact absurd hs' hs
      · exact ⟨_, (h.unique (.absent he hs hx)).2⟩
      · exact ⟨_, (h.unique (.tokenless he hs hx ht)).2⟩

theorem Goes.store_iff (h : Goes settings o d e as r) (he : ∀ c ∈ e, ¬Fits settings d c)
    {x : StoreError} : r = some (.error (.store x)) ↔
      d.spec.secretName ≠ "" ∧ o.secret d.secretNamespace d.spec.secretName = .error x := by
  constructor
  · rintro rfl
    cases h with
    | unread _ hs hx => exact ⟨hs, hx⟩
  · rintro ⟨hs, hx⟩
    exact (h.unique (.unread he hs hx)).2

theorem Goes.client_iff (h : Goes settings o d e as r) (he : ∀ c ∈ e, ¬Fits settings d c)
    {name : String} {x : ClientBuildError} : r = some (.error (.client name x)) ↔
      name = d.name ∧
        ∃ token, Holds settings o d token ∧ o.build (restConfig d token) = .refused x := by
  constructor
  · rintro rfl
    cases h with
    | refused _ ht hx => exact ⟨rfl, _, ht, hx⟩
  · rintro ⟨rfl, token, ht, hx⟩
    exact (h.unique (.refused he ht hx)).2

theorem Goes.crash_iff (h : Goes settings o d e as r) (he : ∀ c ∈ e, ¬Fits settings d c) :
    r = none ↔ ∃ token, Holds settings o d token ∧ o.build (restConfig d token) = .crashed := by
  constructor
  · rintro rfl
    cases h with
    | crashed _ ht hx => exact ⟨_, ht, hx⟩
  · rintro ⟨token, ht, hx⟩
    exact (h.unique (.crashed he ht hx)).2

theorem Goes.success_iff (h : Goes settings o d e as r) (he : ∀ c ∈ e, ¬Fits settings d c) :
    r = some (.ok c) ↔ ∃ token client, Holds settings o d token ∧
      o.build (restConfig d token) = .built client ∧
        c = connection settings d (restConfig d token) client := by
  constructor
  · rintro rfl
    cases h with
    | kept hc => exact absurd hc (he _ rfl)
    | opened _ ht hx => exact ⟨_, _, ht, hx, rfl⟩
  · rintro ⟨token, client, ht, hx, rfl⟩
    exact (h.unique (.opened he ht hx)).2

theorem map_eq_error_iff {x : RegistrationError} :
    r.map (·.map fun _ => ()) = some (.error x) ↔ r = some (.error x) := by
  rcases r with _ | _ | _ <;> simp [Except.map]

theorem map_eq_ok_iff :
    r.map (·.map fun _ => ()) = some (.ok ()) ↔ ∃ c, r = some (.ok c) := by
  rcases r with _ | _ | _ <;> simp [Except.map]

theorem Goes.ends (h : Goes settings o d e as r) (he : ∀ c ∈ e, ¬Fits settings d c) :
    Ends settings o d (r.map (·.map fun _ => ()), left t r) where
  credentials name := by simp only [map_eq_error_iff, h.credentials_iff he]
  store x := map_eq_error_iff.trans (h.store_iff he)
  client name x := map_eq_error_iff.trans (h.client_iff he)
  crash := Option.map_eq_none_iff.trans (h.crash_iff he)
  success := by
    rw [map_eq_ok_iff]
    constructor
    · rintro ⟨c, rfl⟩
      obtain ⟨token, client, ht, hx, -⟩ := (h.success_iff he).1 rfl
      exact ⟨token, client, ht, hx⟩
    · rintro ⟨token, client, ht, hx⟩
      exact ⟨_, (h.success_iff he).2 ⟨token, client, ht, hx, rfl⟩⟩
  opened token client ht hx := by
    obtain rfl := (h.success_iff he).2 ⟨token, client, ht, hx, rfl⟩
    exact Table.find?_insert_self _ _ _

end

/--
How a registration goes on its own. Without a fitting entry it ends as the secret and the factory
will have it; with one, neither of them is asked.
-/
theorem outcome_of_register (settings : RegistrationSettings) (o : Outside) (d : Descriptor)
    {t : Table Connection} (hf : Filed t) :
    Touches d.name t ((register settings d).runBy o.handler t) ∧
      ((∀ c ∈ t.find? d.name, ¬Fits settings d c) →
        Ends settings o d ((register settings d).runBy o.handler t) ∧
          Asks settings o d (o.actions (register settings d) t)) ∧
      ∀ c ∈ t.find? d.name, Fits settings d c →
        (register settings d).runBy o.handler t =
            (some (.ok ()), t.insert d.name { c with status := d.status.getD .empty }) ∧
          o.actions (register settings d) t =
            [.lookUp d.name, .insert { c with status := d.status.getD .empty }] := by
  have hn : ∀ c ∈ t.find? d.name, c.name = d.name := fun c hc => hf.find? hc
  obtain ⟨r, hg, hrun⟩ := goes_register settings o d t
  refine ⟨hrun ▸ hg.touches hn, fun he => ⟨hrun ▸ hg.ends he, hg.asks he⟩, fun c hc hfit => ?_⟩
  obtain ⟨has, hkept⟩ := (Goes.kept hfit).run hc
  exact ⟨hkept.trans (congrArg (fun n => (_, t.insert n _)) (hn c hc)), has⟩

/-- The newcomer, answering at another port by now. -/
def relocated : Descriptor :=
  { newcomer with spec := { newcomer.spec with apiEndpoint := "https://west.example:6443" } }

def newcomerCache : Table Connection :=
  [("west", connection {} newcomer (restConfig newcomer "secret") newcomerClient)]

def refusing : Outside where
  secret _ _ := .ok (some [("token", " secret ")])
  build _ := .refused (.invalidConfig "bad tls")

theorem outcome_of_relocated : Filed newcomerCache ∧
    (register {} relocated).runBy refusing.handler newcomerCache =
      (some (.error (.client "west" (.invalidConfig "bad tls"))), newcomerCache) := by
  have hf : Filed newcomerCache := by
    intro e he
    rw [List.mem_singleton.1 he]
    rfl
  obtain ⟨htouches, hopens, _⟩ := outcome_of_register {} refusing relocated hf
  have hne : ∀ c ∈ newcomerCache.find? relocated.name, ¬Fits {} relocated c := by
    rintro c ⟨⟩ hfit
    exact absurd hfit.apiEndpoint (by decide)
  have hheld : Holds {} refusing relocated "secret" :=
    ⟨by decide, _, " secret ", rfl, rfl, ⟨'s', by decide, by decide⟩, by decide +kernel⟩
  have hout := ((hopens hne).1.client "west" _).2 ⟨rfl, "secret", hheld, rfl⟩
  exact ⟨hf, Prod.ext hout (htouches.kept (by simp [hout]))⟩

end Registration
end ClusterFleet
