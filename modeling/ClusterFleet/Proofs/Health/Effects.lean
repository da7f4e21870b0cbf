import ClusterFleet.Proofs.Health.Miss
import ClusterFleet.Proofs.Moment
import ClusterFleet.Proofs.Trail

namespace ClusterFleet.Rounds

structure Scene where
  store : MemoryStore
  connections : Table Connection

def Scene.world (s : Scene) : World where
  connections := s.connections
  store := .memory s.store
  clock := { start := ⟨0, 0⟩ }

def Scene.ofWorld (w : World) : Scene where
  store := match w.store with
    | .memory m => m
    | .server _ => {}
  connections := w.connections

/-- The store and the cache do what is asked of them, as far as the moment lets them. A pass builds
no clients. -/
def Scene.perform (m : Moment) (s : Scene) (a : Action) : a.Reply × Scene :=
  let (r, w) := s.world.respond (fun _ => .crashed) m a
  (r, .ofWorld w)

theorem Scene.perform_findCluster (m : Moment) (s : Scene) (name : String) :
    s.perform m (.findCluster name) = (match m.unread with
      | some e => .error e
      | none => .ok (s.store.find name), s) := by
  simp only [perform, World.respond, World.ask]
  cases m.unread <;> rfl

theorem Scene.perform_writeStatus (m : Moment) (s : Scene) (name : String) (st : Status) :
    s.perform m (.writeStatus name st) = match m.unwritten with
      | some e => (.error e, s)
      | none => ((s.store.writeStatus name st).1,
        { s with store := (s.store.writeStatus name st).2 }) := by
  simp only [perform, World.respond]
  cases m.unwritten <;> rfl

/-- What others do. -/
inductive Change where
  | put (d : Descriptor)
  | removed (name : String)
  | cached (c : Connection)
  | uncached (name : String)

def Change.apply (s : Scene) : Change → Scene
  | .put d => { s with store := s.store.put d }
  | .removed name => { s with store := s.store.remove name }
  | .cached c => { s with connections := s.connections.insert c.name c }
  | .uncached name => { s with connections := s.connections.erase name }

/-- A deed, with the scene right before it and right after it. -/
structure Stroke where
  before : Scene
  deed : Deed
  after : Scene

/-- A pass on its way: what it has done, the first of it first, and what is left to do. -/
structure Pass where
  name : String
  strokes : List Stroke
  rest : Program (Except PassError PassOutcome)

def Pass.deeds (p : Pass) : List Deed := p.strokes.map (·.deed)

def Scene.stroke (m : Moment) (s : Scene) (a : Action) : Stroke :=
  ⟨s, ⟨a, (s.perform m a).1⟩, (s.perform m a).2⟩

def Pass.push (p : Pass) (x : Stroke) (rest : Program (Except PassError PassOutcome)) : Pass :=
  ⟨p.name, p.strokes ++ [x], rest⟩

def Pass.act (m : Moment) (s : Scene) (p : Pass) : Pass × Scene :=
  match p.rest with
  | .call a next => (p.push (s.stroke m a) (next (s.perform m a).1), (s.perform m a).2)
  | _ => (p, s)

inductive Move where
  | begins (name : String)
  /-- The pass in this place goes on. -/
  | acts (i : Nat) (m : Moment)
  | changes (c : Change)

structure State where
  scene : Scene
  passes : List Pass

def State.step (interval : Span) (s : State) : Move → State
  | .begins name => { s with passes := s.passes ++ [⟨name, [], Health.pass interval name⟩] }
  | .acts i m => match s.passes[i]? with
    | some p => ⟨(p.act m s.scene).2, s.passes.set i (p.act m s.scene).1⟩
    | none => s
  | .changes c => { s with scene := c.apply s.scene }

def run (interval : Span) (start : Scene) (moves : List Move) : State :=
  moves.foldl (State.step interval) ⟨start, []⟩

def Move.without (s : Scene) : Move → Scene
  | .changes c => c.apply s
  | _ => s

/-- What the others alone would have made of the scene. -/
def without (start : Scene) (moves : List Move) : Scene := moves.foldl Move.without start

/-- Nothing but the status of one descriptor differs, and that descriptor was there. -/
structure Spares (name : String) (s s' : Scene) : Prop where
  connections : s'.connections = s.connections
  secrets : s'.store.secrets = s.store.secrets
  others : ∀ n ≠ name, s'.store.find n = s.store.find n
  absent : s.store.find name = none → s'.store.find name = none
  present : ∀ d, s.store.find name = some d →
    ∃ st, s'.store.find name = some { d with status := st }

structure Stroke.Mild (name : String) (x : Stroke) : Prop where
  answered : ∃ m, x.before.perform m x.deed.action = (x.deed.reply, x.after)
  spares : Spares name x.before x.after
  idle : (∀ st, x.deed ≠ ⟨.writeStatus name st, .ok ()⟩) → x.after = x.before

def tellsOfWrite : Except PassError PassOutcome → Bool
  | .error (.cacheMiss _) | .ok (.requeueAfter _) => true
  | _ => false

def Pass.tellsOfWrite (p : Pass) : Bool :=
  match p.rest with
  | .done r => Rounds.tellsOfWrite r
  | _ => false

def requests (ds : List Deed) : List Action := (ds.map (·.action)).filter Action.isRequest

/-- The result of a pass, by what it has done: it is one of five, and each of them comes of just
such deeds. -/
structure Tells (interval : Span) (name : String) (ds : List Deed)
    (r : Except PassError PassOutcome) : Prop where
  sought : ∃ found, ds.head? = some ⟨.findCluster name, found⟩
  fetch (n : String) (e : StoreError) :
    r = .error (.fetch n e) ↔ n = name ∧ ⟨.findCluster name, .error e⟩ ∈ ds
  finished : r = .ok .finished ↔ ⟨.findCluster name, .ok none⟩ ∈ ds
  persistence (n : String) (e : StoreError) : r = .error (.persistence n e) ↔
    n = name ∧ ∃ st, ⟨.writeStatus name st, .error e⟩ ∈ ds
  cacheMiss (n : String) : r = .error (.cacheMiss n) ↔ n = name ∧ ∃ d now,
    ⟨.findCluster name, .ok (some d)⟩ ∈ ds ∧ ⟨.lookUp name, none⟩ ∈ ds ∧
      ⟨.writeStatus name ⟨Health.afterMiss now d.conditions⟩, .ok ()⟩ ∈ ds
  requeueAfter (span : Span) : r = .ok (.requeueAfter span) ↔
    span = interval ∧ ∃ d c answer now,
      ⟨.findCluster name, .ok (some d)⟩ ∈ ds ∧ ⟨.lookUp name, some c⟩ ∈ ds ∧
        ⟨.probe c.client, answer⟩ ∈ ds ∧
        ⟨.writeStatus name ⟨Condition.merge d.conditions (Health.observe answer) now⟩, .ok ()⟩ ∈ ds
  brief : (∃ n e, r = .error (.fetch n e)) ∨ r = .ok .finished →
    requests ds = [.findCluster name]

/-- How far the write of a status has come. -/
inductive Pens (name : String) (st : Status) (v : Except PassError PassOutcome) :
    List Deed → Option (Except PassError PassOutcome) → Prop
  | due : Pens name st v [] none
  | written : Pens name st v [⟨.writeStatus name st, .ok ()⟩] (some v)
  | unwritten (e : StoreError) :
    Pens name st v [⟨.writeStatus name st, .error e⟩] (some (.error (.persistence name e)))

/-- How far a pass has come, and how it has ended if it is over. -/
inductive Stands (interval : Span) (name : String) :
    List Deed → Option (Except PassError PassOutcome) → Prop
  | fresh : Stands interval name [] none
  | unread (e : StoreError) :
    Stands interval name [⟨.findCluster name, .error e⟩] (some (.error (.fetch name e)))
  | gone : Stands interval name [⟨.findCluster name, .ok none⟩] (some (.ok .finished))
  | found (d : Descriptor) : Stands interval name [⟨.findCluster name, .ok (some d)⟩] none
  | looked (d : Descriptor) (c : Option Connection) :
    Stands interval name [⟨.findCluster name, .ok (some d)⟩, ⟨.lookUp name, c⟩] none
  | probed (d : Descriptor) (c : Connection) (answer : Http.Answer) :
    Stands interval name [⟨.findCluster name, .ok (some d)⟩, ⟨.lookUp name, some c⟩,
      ⟨.probe c.client, answer⟩] none
  | missed (d : Descriptor) (now : Instant) {ds : List Deed}
    {r : Option (Except PassError PassOutcome)}
    (h : Pens name ⟨Health.afterMiss now d.conditions⟩ (.error (.cacheMiss name)) ds r) :
    Stands interval name
      (⟨.findCluster name, .ok (some d)⟩ :: ⟨.lookUp name, none⟩ :: ⟨.now, now⟩ :: ds) r
  | observed (d : Descriptor) (c : Connection) (answer : Http.Answer) (now : Instant)
    {ds : List Deed} {r : Option (Except PassError PassOutcome)}
    (h : Pens name ⟨Condition.merge d.conditions (Health.observe answer) now⟩
      (.ok (.requeueAfter interval)) ds r) :
    Stands interval name (⟨.findCluster name, .ok (some d)⟩ :: ⟨.lookUp name, some c⟩ ::
      ⟨.probe c.client, answer⟩ :: ⟨.now, now⟩ :: ds) r

section
variable {interval : Span} {name : String} {st : Status} {cs : List Condition}
  {v : Except PassError PassOutcome} {ds : List Deed} {q : Program (Except PassError PassOutcome)}
  {r : Option (Except PassError PassOutcome)}

theorem pens_of_trail (h : (Health.persist name cs v).Trail ds q) :
    Pens name ⟨cs⟩ v ds q.result? := by
  cases h with
  | here => exact .due
  | @goes _ _ r _ _ h =>
    cases r with
    | error e =>
      cases h with
      | here => exact .unwritten e
    | ok u =>
      cases h with
      | here => exact .written

theorem stands_of_trail (h : (Health.pass interval name).Trail ds q) :
    Stands interval name ds q.result? := by
  -- The pass forks where it learns whether the name is stored, and whether it is cached.
  cases h with
  | here => exact .fresh
  | @goes _ _ found _ _ h =>
    rcases found with e | _ | d
    · cases h with
      | here => exact .unread e
    · cases h with
      | here => exact .gone
    · cases h with
      | here => exact .found d
      | @goes _ _ c _ _ h =>
        cases c with
        | none =>
          cases h with
          | here => exact .looked d none
          | @goes _ _ now _ _ h =>
            exact .missed d now (Health.merge_offlines now _ ▸ pens_of_trail h)
        | some c =>
          cases h with
          | here => exact .looked d (some c)
          | @goes _ _ answer _ _ h =>
            cases h with
            | here => exact .probed d c answer
            | @goes _ _ now _ _ h => exact .observed d c answer now (pens_of_trail h)

theorem Stands.requests (h : Stands interval name ds r) : ∃ c st,
    (requests ds).Sublist [.findCluster name, .probe c, .writeStatus name st] := by
  let c := ClientFactory.direct ⟨"", false, none, ""⟩
  cases h with
  | fresh => exact ⟨c, .empty, List.nil_sublist _⟩
  | unread | gone | found | looked => exact ⟨c, .empty, .cons_cons _ (List.nil_sublist _)⟩
  | probed _ c => exact ⟨c.client, .empty, .cons_cons _ (.cons_cons _ (List.nil_sublist _))⟩
  | missed d now h =>
    cases h with
    | due => exact ⟨c, .empty, .cons_cons _ (List.nil_sublist _)⟩
    | written | unwritten => exact ⟨c, _, .cons_cons _ (.cons _ (.refl _))⟩
  | observed d c answer now h =>
    cases h with
    | due => exact ⟨c.client, .empty, .cons_cons _ (.cons_cons _ (List.nil_sublist _))⟩
    | written | unwritten => exact ⟨c.client, _, .refl _⟩

theorem Stands.written (h : Stands interval name ds r)
    (hm : ⟨.writeStatus name st, .ok ()⟩ ∈ ds) : ∃ v, r = some v ∧ tellsOfWrite v := by
  cases h with
  | missed d now h =>
    cases h with
    | written => exact ⟨_, rfl, rfl⟩
    | _ => simp at hm
  | observed d c answer now h =>
    cases h with
    | written => exact ⟨_, rfl, rfl⟩
    | _ => simp at hm
  | _ => simp at hm

theorem Stands.unwritten (h : Stands interval name ds r) {e : StoreError}
    (hm : ⟨.writeStatus name st, .error e⟩ ∈ ds) :
    r = some (.error (.persistence name e)) := by
  cases h with
  | missed d now h =>
    cases h with
    | unwritten e' =>
      obtain ⟨-, rfl⟩ : _ ∧ e = e' := by simpa using hm
      rfl
    | due | written => simp at hm
  | observed d c answer now h =>
    cases h with
    | unwritten e' =>
      obtain ⟨-, rfl⟩ : _ ∧ e = e' := by simpa using hm
      rfl
    | due | written => simp at hm
  | _ => simp at hm

theorem Stands.length_lt (h : Stands interval name ds none) : ds.length < 5 := by
  cases h with
  | missed d now h =>
    cases h
    simp
  | observed d c answer now h =>
    cases h
    simp
  | _ => simp

theorem Stands.sought (h : Stands interval name ds (some v)) :
    ∃ found, ds.head? = some ⟨.findCluster name, found⟩ := by
  cases h <;> exact ⟨_, rfl⟩

theorem Stands.fetch_iff (h : Stands interval name ds (some v)) {n : String} {e : StoreError} :
    v = .error (.fetch n e) ↔ n = name ∧ ⟨.findCluster name, .error e⟩ ∈ ds := by
  cases h with
  | unread e' => simp [eq_comm]
  | gone => simp
  | missed d now h =>
    cases h with
    | written | unwritten => simp
  | observed d c answer now h =>
    cases h with
    | written | unwritten => simp

theorem Stands.finished_iff (h : Stands interval name ds (some v)) :
    v = .ok .finished ↔ ⟨.findCluster name, .ok none⟩ ∈ ds := by
  cases h with
  | gone => simp
  | unread e => simp
  | missed d now h =>
    cases h with
    | written | unwritten => simp
  | observed d c answer now h =>
    cases h with
    | written | unwritten => simp

theorem Stands.persistence_iff (h : Stands interval name ds (some v)) {n : String}
    {e : StoreError} : v = .error (.persistence n e) ↔
      n = name ∧ ∃ st, ⟨.writeStatus name st, .error e⟩ ∈ ds := by
  constructor
  · rintro rfl
    cases h with
    | missed d now h =>
      cases h with
      | unwritten => exact ⟨rfl, _, by simp; rfl⟩
    | observed d c answer now h =>
      cases h with
      | unwritten => exact ⟨rfl, _, by simp; rfl⟩
  · rintro ⟨rfl, st, hm⟩
    exact Option.some.inj (h.unwritten hm)

theorem Stands.cacheMiss_iff (h : Stands interval name ds (some v)) {n : String} :
    v = .error (.cacheMiss n) ↔ n = name ∧ ∃ d now,
      ⟨.findCluster name, .ok (some d)⟩ ∈ ds ∧ ⟨.lookUp name, none⟩ ∈ ds ∧
        ⟨.writeStatus name ⟨Health.afterMiss now d.conditions⟩, .ok ()⟩ ∈ ds := by
  cases h with
  | missed d now h =>
    cases h with
    | written =>
      constructor
      · rintro ⟨⟩
        exact ⟨rfl, d, now, by simp⟩
      · rintro ⟨rfl, _⟩
        rfl
    | unwritten => simp
  | observed d c answer now h =>
    cases h with
    | written | unwritten => simp
  | unread | gone => simp

theorem Stands.requeueAfter_iff (h : Stands interval name ds (some v)) {span : Span} :
    v = .ok (.requeueAfter span) ↔ span = interval ∧ ∃ d c answer now,
      ⟨.findCluster name, .ok (some d)⟩ ∈ ds ∧ ⟨.lookUp name, some c⟩ ∈ ds ∧
        ⟨.probe c.client, answer⟩ ∈ ds ∧ ⟨.writeStatus name
          ⟨Condition.merge d.conditions (Health.observe answer) now⟩, .ok ()⟩ ∈ ds := by
  cases h with
  | observed d c answer now h =>
    cases h with
    | written =>
      constructor
      · rintro ⟨⟩
        exact ⟨rfl, d, c, answer, now, by simp⟩
      · rintro ⟨rfl, _⟩
        rfl
    | unwritten => simp
  | missed d now h =>
    cases h with
    | written | unwritten => simp
  | unread | gone => simp

theorem Stands.brief (h : Stands interval name ds (some v))
    (hv : (∃ n e, v = .error (.fetch n e)) ∨ v = .ok .finished) :
    Rounds.requests ds = [.findCluster name] := by
  cases h with
  | unread | gone => rfl
  | missed d now h =>
    cases h with
    | written | unwritten => simp at hv
  | observed d c answer now h =>
    cases h with
    | written | unwritten => simp at hv

theorem Stands.tells (h : Stands interval name ds (some v)) : Tells interval name ds v :=
  ⟨h.sought, fun _ _ => h.fetch_iff, h.finished_iff, fun _ _ => h.persistence_iff,
    fun _ => h.cacheMiss_iff, fun _ => h.requeueAfter_iff, h.brief⟩

end

def IsQuiet (name : String) : Action → Prop
  | .findCluster n | .lookUp n => n = name
  | .probe _ | .now => True
  | _ => False

/-- The program writes one status at most, and is over once it has; its result then tells so. -/
inductive Meek (name : String) : Program (Except PassError PassOutcome) → Prop
  | ends {v : Except PassError PassOutcome} (hv : tellsOfWrite v = false) : Meek name (.done v)
  | looks {a : Action} {next : a.Reply → Program (Except PassError PassOutcome)}
    (ha : IsQuiet name a) (hn : ∀ r, Meek name (next r)) : Meek name (.call a next)
  | writes {st : Status} {next : Except StoreError Unit → Program (Except PassError PassOutcome)}
    {v : Except PassError PassOutcome} (hv : tellsOfWrite v) (hok : next (.ok ()) = .done v)
    (herr : ∀ e, Meek name (next (.error e))) : Meek name (.call (.writeStatus name st) next)

def Scene.written (s : Scene) (name : String) (d : Descriptor) (st : Status) : Scene :=
  { s with store := { s.store with
      clusters := s.store.clusters.insert name (d.withStatus st)
      statusWrites := s.store.statusWrites + 1 } }

section
variable {interval : Span} {name : String} {s t : Scene} {d : Descriptor} {st : Status}
  {a : Action} {next : a.Reply → Program (Except PassError PassOutcome)}
  {v : Except PassError PassOutcome}

theorem meek_persist (cs : List Condition) (hv : tellsOfWrite v) :
    Meek name (Health.persist name cs v) :=
  .writes hv rfl fun _ => .ends rfl

theorem meek_pass (interval : Span) (name : String) : Meek name (Health.pass interval name) := by
  refine .looks rfl fun found => ?_
  rcases found with e | _ | d
  · exact .ends rfl
  · exact .ends rfl
  · refine .looks rfl fun c => ?_
    cases c with
    | none => exact .looks trivial fun now => meek_persist _ rfl
    | some c => exact .looks trivial fun answer => .looks trivial fun now => meek_persist _ rfl

/-- A meek program leaves the scene, or writes a status and is over. -/
theorem Meek.act (h : Meek name (.call a next)) (m : Moment) (s : Scene) :
    ((s.perform m a).2 = s ∧ Meek name (next (s.perform m a).1)) ∨
      ∃ d st v, s.store.find name = some d ∧
        (⟨a, (s.perform m a).1⟩ : Deed) = ⟨.writeStatus name st, .ok ()⟩ ∧
        (s.perform m a).2 = s.written name d st ∧
        next (s.perform m a).1 = .done v ∧ tellsOfWrite v := by
  cases h with
  | looks ha hn =>
    refine .inl ⟨?_, hn _⟩
    cases a with
    | findCluster n => rw [s.perform_findCluster]
    | lookUp n => rfl
    | probe c => rfl
    | now => rfl
    | _ => cases ha
  | @writes st next v hv hok herr =>
    -- A write that is refused leaves all as it was; one that is not ends the pass.
    cases hu : m.unwritten with
    | some e =>
      have hperform : s.perform m (.writeStatus name st) = (.error e, s) := by
        simp only [Scene.perform_writeStatus, hu]
      rw [hperform]
      exact .inl ⟨rfl, herr e⟩
    | none =>
      cases hd : s.store.find name with
      | none =>
        have hperform : s.perform m (.writeStatus name st) = (.error (.notFound name), s) := by
          simp only [Scene.perform_writeStatus, hu, MemoryStore.writeStatus, hd]
        rw [hperform]
        exact .inl ⟨rfl, herr _⟩
      | some d =>
        have hperform : s.perform m (.writeStatus name st) = (.ok (), s.written name d st) := by
          simp only [Scene.perform_writeStatus, hu, MemoryStore.writeStatus, hd, Scene.written]
        rw [hperform]
        exact .inr ⟨d, st, v, rfl, rfl, rfl, hok, hv⟩

theorem spares_rfl (name : String) (s : Scene) : Spares name s s :=
  ⟨rfl, rfl, fun _ _ => rfl, id, fun d hd => ⟨d.status, hd⟩⟩

theorem spares_written (hd : s.store.find name = some d) (st : Status) :
    Spares name s (s.written name d st) where
  connections := rfl
  secrets := rfl
  others _ hn := Table.find?_insert_of_ne hn _ _
  absent hnone := by cases hnone.symm.trans hd
  present d' hd' := by
    cases hd.symm.trans hd'
    exact ⟨some st, Table.find?_insert_self _ _ _⟩

theorem Meek.mild (h : Meek name (.call a next)) (m : Moment) (s : Scene) :
    (s.stroke m a).Mild name := by
  have hspares : Spares name s (s.perform m a).2 := by
    rcases h.act m s with ⟨hs, _⟩ | ⟨d, st, v, hd, _, hs, _⟩
    · rw [hs]
      exact spares_rfl name s
    · rw [hs]
      exact spares_written hd st
  refine ⟨⟨m, rfl⟩, hspares, fun hne => ?_⟩
  rcases h.act m s with ⟨hs, _⟩ | ⟨d, st, v, _, hdeed, _⟩
  · exact hs
  · exact absurd hdeed (hne st)

end

structure Pass.Sound (interval : Span) (p : Pass) : Prop where
  trail : (Health.pass interval p.name).Trail p.deeds p.rest
  meek : Meek p.name p.rest ∨ p.tellsOfWrite
  strokes : ∀ x ∈ p.strokes, x.Mild p.name

section
variable {interval : Span} {name : String} {s : Scene} {p : Pass} {m : Moment}

theorem sound_begin (interval : Span) (name : String) :
    Pass.Sound interval ⟨name, [], Health.pass interval name⟩ :=
  ⟨.here _, .inl (meek_pass interval name), fun _ hx => absurd hx List.not_mem_nil⟩

theorem act_name (m : Moment) (s : Scene) (p : Pass) : (p.act m s).1.name = p.name := by
  unfold Pass.act
  split <;> rfl

theorem Meek.tellsOfWrite (h : Meek name p.rest) : p.tellsOfWrite = false := by
  unfold Pass.tellsOfWrite
  cases hrest : p.rest with
  | done v =>
    rw [hrest] at h
    cases h with
    | ends hv => exact hv
  | _ => rfl

theorem Pass.Sound.push (h : p.Sound interval) {a : Action}
    {next : a.Reply → Program (Except PassError PassOutcome)} (hrest : p.rest = .call a next)
    (hx : (s.stroke m a).Mild p.name)
    (hm : Meek p.name (next (s.perform m a).1) ∨
      (p.push (s.stroke m a) (next (s.perform m a).1)).tellsOfWrite) :
    (p.push (s.stroke m a) (next (s.perform m a).1)).Sound interval := by
  refine ⟨?_, hm, List.forall_mem_append.2 ⟨h.strokes, List.forall_mem_singleton.2 hx⟩⟩
  have htrail := h.trail.concat hrest (s.perform m a).1
  simpa [Pass.push, Pass.deeds, Scene.stroke] using htrail

/-- What comes of a pass by its next action: it leaves the scene, or it writes and is over. -/
theorem Pass.Sound.act (h : p.Sound interval) (m : Moment) (s : Scene) :
    (p.act m s).1.Sound interval ∧
      (((p.act m s).2 = s ∧ (p.act m s).1.tellsOfWrite = p.tellsOfWrite) ∨
        ∃ d st, s.store.find p.name = some d ∧ (p.act m s).2 = s.written p.name d st ∧
          p.tellsOfWrite = false ∧ (p.act m s).1.tellsOfWrite) := by
  unfold Pass.act
  split
  · next a next hrest =>
    have hno : p.tellsOfWrite = false := by rw [Pass.tellsOfWrite, hrest]
    have hmeek : Meek p.name (.call a next) := by
      rcases h.meek with hm | ht
      · exact hrest ▸ hm
      · -- One that has told of a write is over, and has no action left.
        simp [hno] at ht
    have hpush := h.push (m := m) (s := s) hrest (hmeek.mild m s)
    rcases hmeek.act m s with ⟨hs, hn⟩ | ⟨d, st, v, hd, _, hs, hdone, hv⟩
    · have hstill : (p.push (s.stroke m a) (next (s.perform m a).1)).tellsOfWrite = false :=
        Meek.tellsOfWrite (p := p.push _ _) hn
      exact ⟨hpush (.inl hn), .inl ⟨hs, hstill.trans hno.symm⟩⟩
    · have hyes : (p.push (s.stroke m a) (next (s.perform m a).1)).tellsOfWrite := by
        rw [hdone]
        exact hv
      exact ⟨hpush (.inr hyes), .inr ⟨d, st, hd, hs, hno, hyes⟩⟩
  · exact ⟨h, .inl ⟨rfl, rfl⟩⟩

end

/-- Nothing is different but statuses, and none of those of the names that are kept. -/
structure Alike (kept : String → Prop) (s t : Scene) : Prop where
  connections : s.connections = t.connections
  secrets : s.store.secrets = t.store.secrets
  descriptors (n : String) : (s.store.find n).map (fun d => (d.metadata, d.spec)) =
    (t.store.find n).map fun d => (d.metadata, d.spec)
  kept : ∀ n, kept n → s.store.find n = t.store.find n

def IsKept (ps : List Pass) (name : String) : Prop :=
  ∀ p ∈ ps, p.name = name → p.tellsOfWrite = false

/-- How the scene has come about, next to what the others have made of it. -/
structure Agrees (interval : Span) (s : State) (t : Scene) : Prop where
  sound : ∀ p ∈ s.passes, p.Sound interval
  scene : Alike (IsKept s.passes) s.scene t
  count : s.scene.store.statusWrites = t.store.statusWrites + s.passes.countP Pass.tellsOfWrite

section
variable {interval : Span} {name : String} {s t : Scene} {d : Descriptor} {r : State}
  {kept kept' : String → Prop}

theorem Alike.mono (h : Alike kept s t) (hk : ∀ n, kept' n → kept n) : Alike kept' s t :=
  ⟨h.connections, h.secrets, h.descriptors, fun n hn => h.kept n (hk n hn)⟩

theorem Change.find_apply (c : Change) (n : String) :
    (∃ o, ∀ s : Scene, (c.apply s).store.find n = o) ∨
      ∀ s : Scene, (c.apply s).store.find n = s.store.find n := by
  cases c with
  | put d =>
    by_cases hn : n = d.metadata.name.getD ""
    · subst hn
      exact .inl ⟨some d, fun s => Table.find?_insert_self _ d _⟩
    · exact .inr fun s => Table.find?_insert_of_ne hn d _
  | removed name =>
    by_cases hn : n = name
    · subst hn
      exact .inl ⟨none, fun s => Table.find?_erase_self n _⟩
    · exact .inr fun s => Table.find?_erase_of_ne hn _
  | cached c => exact .inr fun _ => rfl
  | uncached name => exact .inr fun _ => rfl

theorem Alike.change (h : Alike kept s t) (c : Change) : Alike kept (c.apply s) (c.apply t) := by
  refine ⟨?_, ?_, fun n => ?_, fun n hk => ?_⟩
  · cases c with
    | put | removed => exact h.connections
    | cached c => exact congrArg (Table.insert c.name c) h.connections
    | uncached name => exact congrArg (Table.erase name) h.connections
  · cases c <;> exact h.secrets
  · rcases c.find_apply n with ⟨o, ho⟩ | hsame
    · rw [ho s, ho t]
    · rw [hsame s, hsame t, h.descriptors n]
  · rcases c.find_apply n with ⟨o, ho⟩ | hsame
    · rw [ho s, ho t]
    · rw [hsame s, hsame t, h.kept n hk]

theorem Alike.written (h : Alike kept s t) (hd : s.store.find name = some d) (st : Status)
    (hk : ∀ n, kept' n → kept n ∧ n ≠ name) : Alike kept' (s.written name d st) t := by
  have hspares := spares_written hd st
  refine ⟨h.connections, h.secrets, fun n => ?_, fun n hn => ?_⟩
  · rw [← h.descriptors n]
    by_cases hn : n = name
    · obtain ⟨st', hst⟩ := hspares.present d hd
      rw [hn, hst, hd]
      rfl
    · rw [hspares.others n hn]
  · obtain ⟨hn, hne⟩ := hk n hn
    exact (hspares.others n hne).trans (h.kept n hn)

theorem step_acts (interval : Span) (r : State) (i : Nat) (m : Moment) :
    r.step interval (.acts i m) = r ∨ ∃ before p after, r.passes = before ++ p :: after ∧
      r.step interval (.acts i m) =
        ⟨(p.act m r.scene).2, before ++ (p.act m r.scene).1 :: after⟩ := by
  simp only [State.step]
  split
  · next p hp =>
    obtain ⟨hi, hget⟩ := List.getElem?_eq_some_iff.1 hp
    obtain ⟨before, after, hpasses, _, hset⟩ :=
      @List.exists_of_set _ i (p.act m r.scene).1 r.passes hi
    exact .inr ⟨before, p, after, hget ▸ hpasses, by rw [hset]⟩
  · exact .inl rfl

theorem Agrees.begins (h : Agrees interval r t) (name : String) :
    Agrees interval (r.step interval (.begins name)) t := by
  refine ⟨?_, ?_, ?_⟩
  · exact List.forall_mem_append.2
      ⟨h.sound, List.forall_mem_singleton.2 (sound_begin interval name)⟩
  · exact h.scene.mono fun n hn p hp => hn p (List.mem_append_left _ hp)
  · have hnew : Pass.tellsOfWrite ⟨name, [], Health.pass interval name⟩ = false := rfl
    change r.scene.store.statusWrites = _ + (r.passes ++ [_]).countP _
    rw [h.count, List.countP_append, List.countP_singleton, hnew]
    rfl

theorem Agrees.changes (h : Agrees interval r t) (c : Change) :
    Agrees interval (r.step interval (.changes c)) (c.apply t) := by
  have hwrites (s : Scene) : (c.apply s).store.statusWrites = s.store.statusWrites := by
    cases c <;> rfl
  refine ⟨h.sound, h.scene.change c, ?_⟩
  change (c.apply r.scene).store.statusWrites = _
  rw [hwrites, hwrites, h.count]
  rfl

theorem isKept_append_cons {before after : List Pass} {p : Pass} :
    IsKept (before ++ p :: after) name ↔
      (p.name = name → p.tellsOfWrite = false) ∧ IsKept (before ++ after) name := by
  simp only [IsKept, List.forall_mem_append, List.forall_mem_cons]
  exact and_left_comm

theorem Agrees.acts (h : Agrees interval r t) (i : Nat) (m : Moment) :
    Agrees interval (r.step interval (.acts i m)) t := by
  rcases step_acts interval r i m with heq | ⟨before, p, after, hpasses, heq⟩
  · rw [heq]
    exact h
  obtain ⟨hold, hscene, hcount⟩ := h
  rw [hpasses] at hold hscene hcount
  obtain ⟨hbefore, hrest⟩ := List.forall_mem_append.1 hold
  obtain ⟨hp, hafter⟩ := List.forall_mem_cons.1 hrest
  have hname := act_name m r.scene p
  obtain ⟨hsound, hact⟩ := hp.act m r.scene
  rw [heq]
  -- All that matters of the new pass and the new scene has been said by now.
  generalize p.act m r.scene = out at hname hsound hact ⊢
  obtain ⟨p', s'⟩ := out
  refine ⟨List.forall_mem_append.2 ⟨hbefore, List.forall_mem_cons.2 ⟨hsound, hafter⟩⟩, ?_, ?_⟩
  · rcases hact with ⟨rfl, ht⟩ | ⟨d, st, hd, rfl, hno, hyes⟩
    · refine hscene.mono fun n hn => ?_
      obtain ⟨hpn, hothers⟩ := isKept_append_cons.1 hn
      exact isKept_append_cons.2 ⟨fun he => ht ▸ hpn (hname.trans he), hothers⟩
    · refine hscene.written hd st fun n hn => ?_
      obtain ⟨hpn, hothers⟩ := isKept_append_cons.1 hn
      refine ⟨isKept_append_cons.2 ⟨fun _ => hno, hothers⟩, ?_⟩
      -- The descriptor that was written to is no longer kept.
      rintro rfl
      exact absurd hyes (by simp [hpn hname])
  · rcases hact with ⟨rfl, ht⟩ | ⟨d, st, hd, rfl, hno, hyes⟩
    · simp only [List.countP_append, List.countP_cons] at hcount ⊢
      rw [ht]
      exact hcount
    · simp only [List.countP_append, List.countP_cons, hno, hyes] at hcount ⊢
      change r.scene.store.statusWrites + 1 = _
      rw [hcount]
      simp only [Bool.false_eq_true, if_false, if_true]
      omega

theorem Agrees.step (h : Agrees interval r t) (m : Move) :
    Agrees interval (r.step interval m) (m.without t) := by
  cases m with
  | begins name => exact h.begins name
  | acts i m => exact h.acts i m
  | changes c => exact h.changes c

theorem Agrees.moves (h : Agrees interval r t) (moves : List Move) :
    Agrees interval (moves.foldl (State.step interval) r) (moves.foldl Move.without t) := by
  induction moves generalizing r t with
  | nil => exact h
  | cons m moves ih => exact ih (h.step m)

theorem agrees_run (interval : Span) (start : Scene) (moves : List Move) :
    Agrees interval (run interval start moves) (without start moves) := by
  have halike : Alike (IsKept []) start start := ⟨rfl, rfl, fun _ => rfl, fun _ _ => rfl⟩
  have hstart : Agrees interval ⟨start, []⟩ start :=
    ⟨fun _ hp => absurd hp List.not_mem_nil, halike, rfl⟩
  exact hstart.moves moves

theorem statusWrites_without (start : Scene) (moves : List Move) :
    (without start moves).store.statusWrites = start.store.statusWrites := by
  unfold without
  induction moves generalizing start with
  | nil => rfl
  | cons m moves ih =>
    refine (ih _).trans ?_
    cases m with
    | changes c => cases c <;> rfl
    | _ => rfl

end

structure Pass.Behaves (interval : Span) (p : Pass) : Prop where
  goes : (∃ v, p.rest = .done v) ∨ (∃ a next, p.rest = .call a next) ∧ p.strokes.length < 5
  requests : ∃ c st,
    (requests p.deeds).Sublist [.findCluster p.name, .probe c, .writeStatus p.name st]
  strokes : ∀ x ∈ p.strokes, x.Mild p.name
  ends : ∀ v, p.rest = .done v → Tells interval p.name p.deeds v
  untouched : ∀ v, p.rest = .done v → Rounds.tellsOfWrite v = false →
    ∀ x ∈ p.strokes, x.after = x.before
  late : ∀ x ∈ p.strokes, ∀ st, x.deed.action = .writeStatus p.name st →
    x.before.store.find p.name = none → ∃ e, p.rest = .done (.error (.persistence p.name e))

theorem unwritten_of_absent {name : String} {s : Scene} (h : s.store.find name = none)
    (m : Moment) (st : Status) :
    ∃ e, (s.perform m (.writeStatus name st)).1 = .error e := by
  simp only [Scene.perform_writeStatus]
  cases m.unwritten with
  | some e => exact ⟨e, rfl⟩
  | none => exact ⟨.notFound name, by simp only [MemoryStore.writeStatus, h]⟩

theorem Pass.Sound.behaves {interval : Span} {p : Pass} (h : p.Sound interval) :
    p.Behaves interval := by
  have hstands := stands_of_trail h.trail
  refine ⟨?_, hstands.requests, h.strokes, fun v hv => ?_, fun v hv ht x hx => ?_,
    fun x hx st ha hnone => ?_⟩
  · cases hrest : p.rest with
    | done v => exact .inl ⟨v, rfl⟩
    | crash =>
      rcases h.meek with hm | ht
      · rw [hrest] at hm
        cases hm
      · simp [Pass.tellsOfWrite, hrest] at ht
    | call a next =>
      rw [hrest] at hstands
      exact .inr ⟨⟨a, next, rfl⟩, by simpa [Pass.deeds] using hstands.length_lt⟩
  · rw [hv] at hstands
    exact hstands.tells
  · refine (h.strokes x hx).idle fun st hd => ?_
    -- A write that took place would have been told.
    obtain ⟨v', hv', hyes⟩ := hstands.written (List.mem_map.2 ⟨x, hx, hd⟩)
    rw [hv] at hv'
    cases hv'
    exact absurd hyes (by simp [ht])
  · obtain ⟨m, hm⟩ := (h.strokes x hx).answered
    obtain ⟨before, ⟨a, r⟩, after⟩ := x
    subst ha
    obtain ⟨e, he⟩ := unwritten_of_absent hnone m st
    -- The stroke met a scene without the name, where every write fails.
    have hr : r = .error e := (congrArg Prod.fst hm).symm.trans he
    subst hr
    exact ⟨e, Program.result?_eq_some.1 (hstands.unwritten (List.mem_map.2 ⟨_, hx, rfl⟩))⟩

/--
Any number of passes, with any moves between their actions: each of them writes one status at most
and touches nothing else, its result tells what it has done, and the store has counted the results
that tell of a write.
-/
theorem effects_of_run (interval : Span) (start : Scene) (moves : List Move) :
    (∀ p ∈ (run interval start moves).passes, p.Behaves interval) ∧
      Alike (IsKept (run interval start moves).passes) (run interval start moves).scene
        (without start moves) ∧
      (run interval start moves).scene.store.statusWrites =
        start.store.statusWrites + (run interval start moves).passes.countP Pass.tellsOfWrite := by
  obtain ⟨hsound, hscene, hcount⟩ := agrees_run interval start moves
  rw [statusWrites_without] at hcount
  exact ⟨fun p hp => (hsound p hp).behaves, hscene, hcount⟩

end ClusterFleet.Rounds
