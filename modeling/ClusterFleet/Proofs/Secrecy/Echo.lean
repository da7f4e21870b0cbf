import ClusterFleet.Health.Pass
import ClusterFleet.Proofs.Crew
import ClusterFleet.Proofs.Moment
import ClusterFleet.Proofs.Store.Tokens

namespace ClusterFleet.Secrecy
open Registration

/-- No remote cluster cares for the token. -/
def IsBlind (m : Move) : Prop :=
  ∀ c c', c.veiled = c'.veiled → m.moment.answer c = m.moment.answer c'

def veiledJournal (j : Journal) : Journal :=
  { j with builds := j.builds.map RestConfig.veiled, probes := j.probes.map Client.veiled }

/-- A world without its secrets, and with all tokens blanked. -/
def veiledWorld (w : World) : World :=
  { w with
    connections := w.connections.mapValues Connection.veiled
    store := w.store.withoutSecrets
    journal := veiledJournal w.journal }

/-- The worlds differ in tokens only, wherever these are. -/
def Alike (key : String) (w w' : World) : Prop :=
  ∃ connections store journal, w' = { w with connections, store, journal } ∧
    w.connections.mapValues Connection.veiled = connections.mapValues Connection.veiled ∧
    w.store.DifferInTokens key store ∧ veiledJournal w.journal = veiledJournal journal

def AkinReplies (key : String) : (a : Action) → a.Reply → a.Reply → Prop
  | .lookUp _, r, r' => r.map Connection.veiled = r'.map Connection.veiled
  | .connections, r, r' => r.map Connection.veiled = r'.map Connection.veiled
  | .readSecret _ _, r, r' => AkinReading key r r'
  | _, r, r' => r = r'

def IsTokenless : Action → Prop
  | .insert _ | .buildClient _ | .probe _ => False
  | _ => True

def IsPlain : Action → Prop
  | .lookUp _ | .connections | .readSecret _ _ => False
  | a => IsTokenless a

section
variable {key : String} {w w' : World} {a : Action}

theorem IsPlain.tokenless (h : IsPlain a) : IsTokenless a := by
  cases a <;> first | exact h | cases h

theorem IsPlain.eq_of_akinReplies (h : IsPlain a) {r r' : a.Reply} (hr : AkinReplies key a r r') :
    r = r' := by
  cases a <;> first | exact hr | cases h

theorem Alike.veiled (h : Alike key w w') : veiledWorld w = veiledWorld w' := by
  obtain ⟨connections, store, journal, rfl, hc, hs, hj⟩ := h
  simp only [veiledWorld, hc, hs.withoutSecrets, hj]

theorem Alike.ask {α : Type} {P : Except StoreError α → Except StoreError α → Prop}
    (hP : ∀ x, P x x) (h : Alike key w w') (reason : Option StoreError)
    {call : Store → Except StoreError α × Store}
    (hcall : ∀ s t, Store.DifferInTokens key s t → P (call s).1 (call t).1 ∧
      Store.DifferInTokens key (call s).2 (call t).2) :
    P (w.ask reason call).1 (w'.ask reason call).1 ∧
      Alike key (w.ask reason call).2 (w'.ask reason call).2 := by
  obtain ⟨connections, store, journal, rfl, hc, hs, hj⟩ := h
  cases reason with
  | some e => exact ⟨hP _, connections, store, journal, rfl, hc, hs, hj⟩
  | none =>
    obtain ⟨hr, hs⟩ := hcall _ _ hs
    exact ⟨hr, connections, _, journal, rfl, hc, hs, hj⟩

theorem Alike.lookUp (h : Alike key w w') (name : String) :
    (w.connections.find? name).map Connection.veiled =
      (w'.connections.find? name).map Connection.veiled := by
  obtain ⟨connections, store, journal, rfl, hc, -⟩ := h
  rw [← Table.find?_mapValues, hc, Table.find?_mapValues]

theorem Alike.values (h : Alike key w w') :
    w.connections.values.map Connection.veiled = w'.connections.values.map Connection.veiled := by
  obtain ⟨connections, store, journal, rfl, hc, -⟩ := h
  rw [← Table.values_mapValues, hc, Table.values_mapValues]

theorem Alike.writeStatus (h : Alike key w w') (name : String) (st : Status) :
    (w.writeStatus name st).1 = (w'.writeStatus name st).1 ∧
      Alike key (w.writeStatus name st).2 (w'.writeStatus name st).2 := by
  obtain ⟨connections, store, journal, rfl, hc, hs, hj⟩ := h
  obtain ⟨hr, hs⟩ := hs.writeStatus name st
  have hwrites : w.journal.writes = journal.writes := (congrArg Journal.writes hj :)
  let writes := (w.writeStatus name st).2.journal.writes
  refine ⟨hr, connections, (store.writeStatus name st).2, { journal with writes }, ?_, hc, hs, ?_⟩
  · simp only [World.writeStatus, writes, hr, hs.showsWrite, hwrites]
  · exact congrArg (fun j : Journal => { j with writes }) hj

variable (build : RestConfig → BuildOutcome) (m : Move)

theorem Alike.answered (h : Alike key w w') (ha : IsTokenless a) :
    Option.Rel (AkinReplies key a) (w.respondTo build m.moment m.task a).1
        (w'.respondTo build m.moment m.task a).1 ∧
      Alike key (w.respondTo build m.moment m.task a).2
        (w'.respondTo build m.moment m.task a).2 := by
  -- Replies differ only where a secret or a connection is handed out.
  cases a with
  | findCluster name =>
    obtain ⟨hr, hw⟩ := h.ask (fun _ => rfl) m.moment.unread fun _ _ hs => hs.find name
    exact ⟨.some hr, hw⟩
  | listClusters =>
    obtain ⟨hr, hw⟩ := h.ask (fun _ => rfl) m.moment.unlisted fun _ _ hs => hs.list
    exact ⟨.some hr, hw⟩
  | readSecret ns name =>
    obtain ⟨hr, hw⟩ := h.ask .same m.moment.sealed fun _ _ hs => hs.secret ns name
    exact ⟨.some hr, hw⟩
  | writeStatus name st =>
    simp only [World.respondTo, World.respond]
    cases m.moment.unwritten with
    | some e => exact ⟨.some rfl, h⟩
    | none =>
      obtain ⟨hr, hw⟩ := h.writeStatus name st
      exact ⟨.some hr, hw⟩
  | lookUp name => exact ⟨.some (h.lookUp name), h⟩
  | connections => exact ⟨.some h.values, h⟩
  | erase name =>
    obtain ⟨connections, store, journal, rfl, hc, hs, hj⟩ := h
    refine ⟨.some rfl, connections.erase name, store, journal, rfl, ?_, hs, hj⟩
    show (w.connections.erase name).mapValues _ = (connections.erase name).mapValues _
    rw [Table.mapValues_erase, hc, Table.mapValues_erase]
  | clear =>
    obtain ⟨connections, store, journal, rfl, hc, hs, hj⟩ := h
    exact ⟨.some rfl, _, store, journal, rfl, rfl, hs, hj⟩
  | takeTurn =>
    obtain ⟨connections, store, journal, rfl, hc, hs, hj⟩ := h
    refine ⟨?_, connections, store, journal, rfl, hc, hs, hj⟩
    rw [World.respondTo, World.step_takeTurn, World.respondTo, World.step_takeTurn]
    cases (w.turn.take m.task).1 with
    | true => exact .some rfl
    | false => exact .none
  | insert c => cases ha
  | buildClient config => cases ha
  | probe c => cases ha
  | _ =>
    obtain ⟨connections, store, journal, rfl, hc, hs, hj⟩ := h
    exact ⟨.some rfl, connections, store, journal, rfl, hc, hs, hj⟩

theorem Alike.insert {c c' : Connection} (h : Alike key w w') (hc : c.veiled = c'.veiled) :
    Alike key (w.respondTo build m.moment m.task (.insert c)).2
      (w'.respondTo build m.moment m.task (.insert c')).2 := by
  obtain ⟨connections, store, journal, rfl, hconnections, hs, hj⟩ := h
  have hn : c.name = c'.name := by
    rw [← c.name_veiled, hc, c'.name_veiled]
  refine ⟨connections.insert c'.name c', store, journal, rfl, ?_, hs, hj⟩
  show (w.connections.insert c.name c).mapValues _ = (connections.insert c'.name c').mapValues _
  rw [Table.mapValues_insert, Table.mapValues_insert, hconnections, hn, hc]

theorem Alike.buildClient {config config' : RestConfig} (h : Alike key w w')
    (hc : config.veiled = config'.veiled) :
    Alike key (w.respondTo build m.moment m.task (.buildClient config)).2
      (w'.respondTo build m.moment m.task (.buildClient config')).2 := by
  obtain ⟨connections, store, journal, rfl, hconnections, hs, hj⟩ := h
  refine ⟨connections, store, _, rfl, hconnections, hs, ?_⟩
  simp only [World.respondTo, World.respond, World.perform, veiledJournal,
    Journal.mk.injEq, List.map_append, List.map_cons, List.map_nil] at hj ⊢
  obtain ⟨hbuilds, hprobes, hwrites⟩ := hj
  exact ⟨by rw [hbuilds, hc], hprobes, hwrites⟩

theorem Alike.probe (h : Alike key w w') {c c' : Client} (hc : c.veiled = c'.veiled) :
    Alike key (w.respondTo build m.moment m.task (.probe c)).2
      (w'.respondTo build m.moment m.task (.probe c')).2 := by
  obtain ⟨connections, store, journal, rfl, hconnections, hs, hj⟩ := h
  refine ⟨connections, store, _, rfl, hconnections, hs, ?_⟩
  simp only [World.respondTo, World.respond, World.perform, veiledJournal,
    Journal.mk.injEq, List.map_append, List.map_cons, List.map_nil] at hj ⊢
  obtain ⟨hbuilds, hprobes, hwrites⟩ := hj
  exact ⟨hbuilds, by rw [hprobes, hc], hwrites⟩

end

/-- The programs do the same, but for the tokens, as long as they are told the same. -/
inductive Echoes (key : String) {α : Type} (R : α → α → Prop) : Program α → Program α → Prop
  | done {v v' : α} (h : R v v') : Echoes key R (.done v) (.done v')
  | crash : Echoes key R .crash .crash
  | call {a : Action} {next next' : a.Reply → Program α} (ha : IsTokenless a)
    (hn : ∀ r r', AkinReplies key a r r' → Echoes key R (next r) (next' r')) :
    Echoes key R (.call a next) (.call a next')
  | insert {c c' : Connection} {next next' : Unit → Program α} (hc : c.veiled = c'.veiled)
    (hn : Echoes key R (next ()) (next' ())) :
    Echoes key R (.call (.insert c) next) (.call (.insert c') next')
  | build {config config' : RestConfig} {next next' : BuildOutcome → Program α}
    (hc : config.Akin config')
    (hn : ∀ o o', o.veiled = o'.veiled → Echoes key R (next o) (next' o')) :
    Echoes key R (.call (.buildClient config) next) (.call (.buildClient config') next')
  | probe {c c' : Client} {next next' : Http.Answer → Program α} (hc : c.veiled = c'.veiled)
    (hn : ∀ r, Echoes key R (next r) (next' r)) :
    Echoes key R (.call (.probe c) next) (.call (.probe c') next')

/-- One action of a program; one that has to wait will ask again. Clients are built in earnest. -/
def advance {α : Type} (options : ClientOptions) (m : Move) : Program α → World → Program α × World
  | .call a next, w =>
    let (r, w) := w.respondTo (Client.build options) m.moment m.task a
    (match r with | some r => next r | none => .call a next, w)
  | p, w => (p, w)

section
variable {key : String} {α β : Type} {R : α → α → Prop} {S : β → β → Prop} {p p' : Program α}

theorem Echoes.bind (h : Echoes key R p p') {f f' : α → Program β}
    (hf : ∀ v v', R v v' → Echoes key S (f v) (f' v')) : Echoes key S (p >>= f) (p' >>= f') := by
  induction h with
  | done h => exact hf _ _ h
  | crash => exact .crash
  | call ha _ ih => exact .call ha ih
  | insert hc _ ih => exact .insert hc ih
  | build hc _ ih => exact .build hc ih
  | probe hc _ ih => exact .probe hc ih

theorem Echoes.heard {a : Action} {next next' : a.Reply → Program α} (ha : IsPlain a)
    (hn : ∀ r, Echoes key R (next r) (next' r)) : Echoes key R (.call a next) (.call a next') :=
  .call ha.tokenless fun _ _ h => ha.eq_of_akinReplies h ▸ hn _

theorem Echoes.advance (h : Echoes key R p p') (options : ClientOptions) {m : Move}
    (hm : IsBlind m) {w w' : World} (hw : Alike key w w') :
    Echoes key R (advance options m p w).1 (advance options m p' w').1 ∧
      Alike key (advance options m p w).2 (advance options m p' w').2 := by
  cases h with
  | done h => exact ⟨.done h, hw⟩
  | crash => exact ⟨.crash, hw⟩
  | @call a next next' ha hn =>
    obtain ⟨hr, hw⟩ := hw.answered (Client.build options) m ha
    refine ⟨?_, hw⟩
    simp only [Secrecy.advance]
    generalize (w.respondTo (Client.build options) m.moment m.task a).1 = reply at hr ⊢
    generalize (w'.respondTo (Client.build options) m.moment m.task a).1 = reply' at hr ⊢
    cases hr with
    | none => exact .call ha hn
    | some hr => exact hn _ _ hr
  | insert hc hn => exact ⟨hn, hw.insert _ m hc⟩
  | build hc hn => exact ⟨hn _ _ (hc.build options), hw.buildClient _ m hc.veiled⟩
  | @probe c c' next next' hc hn =>
    refine ⟨?_, hw.probe _ m hc⟩
    show Echoes key R (next (m.moment.answer c)) (next' (m.moment.answer c'))
    -- The remote answers both in the same way, as it does not care for the token.
    rw [hm c c' hc]
    exact hn _

end

section
variable {key : String} (settings : RegistrationSettings)

theorem echoes_resolve (d : Descriptor) :
    Echoes key AkinConfig (resolve settings d) (resolve settings d) := by
  by_cases hs : d.spec.secretName = ""
  · simp only [resolve, hs, if_true]
    exact .done (.failed _)
  · simp only [resolve, hs, if_false]
    refine .call trivial fun r r' h => ?_
    cases h with
    | same =>
      cases r with
      | error e => exact .done (.failed _)
      | ok data => exact .done (.refl _)
    | tokens h => exact .done (fromSecret_akin settings d h)

theorem echoes_connect (d : Descriptor) :
    Echoes key Eq (connect settings d) (connect settings d) := by
  refine (echoes_resolve settings d).bind fun r r' h => ?_
  cases h with
  | failed e => exact .done rfl
  | found hc =>
    refine .build hc fun o o' ho => ?_
    match o, o', ho with
    | .built client, .built client', ho =>
      exact .insert (veiled_connection settings d hc.veiled (BuildOutcome.built.inj ho)) (.done rfl)
    | .refused e, .refused e', ho =>
      obtain rfl : e = e' := BuildOutcome.refused.inj ho
      exact .done rfl
    | .crashed, .crashed, _ => exact .crash

theorem echoes_register (d : Descriptor) :
    Echoes key Eq (register settings d) (register settings d) := by
  simp only [register, Program.act_bind]
  refine .call trivial fun found found' h => ?_
  cases found with
  | none =>
    cases found' with
    | none => exact echoes_connect settings d
    | some c' => cases h
  | some c =>
    cases found' with
    | none => cases h
    | some c' =>
      have hc : c.veiled = c'.veiled := Option.some.inj h
      have hagrees : agrees settings c d = agrees settings c' d := by
        rw [← agrees_veiled c, hc, agrees_veiled]
      simp only [hagrees]
      split
      · exact .insert (Connection.veiled_withStatus hc _) (.done rfl)
      · exact echoes_connect settings d

theorem echoes_registerAll (ds : List Descriptor) :
    Echoes key Eq (registerAll settings ds) (registerAll settings ds) := by
  induction ds with
  | nil => exact .done rfl
  | cons d ds ih =>
    refine (echoes_register settings d).bind ?_
    rintro r _ rfl
    refine ih.bind ?_
    rintro n _ rfl
    exact .done rfl

theorem echoes_refresh : Echoes key Eq (refresh settings) (refresh settings) := by
  refine .heard trivial fun r => ?_
  cases r with
  | error e => exact .done rfl
  | ok ds => exact echoes_registerAll settings ds

end

section
variable {key : String}

theorem echoes_addAll (cs : List Connection) :
    Echoes key Eq (RefreshHook.addAll cs) (RefreshHook.addAll cs) := by
  induction cs with
  | nil => exact .done rfl
  | cons c cs ih => exact .insert rfl ih

theorem echoes_fill (hook : RefreshHook) : Echoes key Eq hook.fill hook.fill := by
  cases hook with
  | reload settings =>
    refine .heard trivial fun held => ?_
    cases held with
    | false => exact .done rfl
    | true => exact (echoes_refresh settings).bind fun _ _ _ => .done rfl
  | preload delay cs =>
    simp only [RefreshHook.fill]
    split
    · exact .heard trivial fun _ => echoes_addAll cs
    · exact echoes_addAll cs

theorem echoes_refreshBy :
    Echoes key Eq (Cache.refreshBy RefreshHook.run) (Cache.refreshBy RefreshHook.run) := by
  simp only [Cache.refreshBy, Program.act_bind]
  refine .heard trivial fun seen => ?_
  refine .heard trivial fun _ => ?_
  have hsince : Echoes key Eq (Cache.refreshSince RefreshHook.run seen)
      (Cache.refreshSince RefreshHook.run seen) := by
    simp only [Cache.refreshSince, Program.act_bind]
    refine .heard trivial fun count => ?_
    split
    · refine .heard trivial fun hook => ?_
      have hcount : Echoes key Eq (Program.act .countRefresh) (Program.act .countRefresh) :=
        .heard trivial fun _ => .done rfl
      cases hook with
      | none => exact hcount
      | some hook =>
        have hrun : Echoes key Eq hook.run hook.run :=
          .heard (a := .hookBegins) trivial fun _ => echoes_fill hook
        exact hrun.bind fun _ _ _ => hcount
    · exact .done rfl
  exact hsince.bind fun _ _ _ => .heard trivial fun _ => .done rfl

theorem echoes_get (name : String) (mayRefresh : Bool) :
    Echoes key (fun c c' => c.map Connection.veiled = c'.map Connection.veiled)
      (Cache.get name mayRefresh) (Cache.get name mayRefresh) := by
  refine .call trivial fun found found' h => ?_
  match found, found', h with
  | some c, some c', h => exact .done h
  | none, none, _ =>
    cases mayRefresh with
    | false => exact .done rfl
    | true => exact echoes_refreshBy.bind fun _ _ _ => .call trivial fun _ _ h => .done h

theorem veiled_filter (filters : List ConnectionFilter) (cs : List Connection) :
    (cs.filter fun c => filters.all (·.accepts c)).map Connection.veiled =
      (cs.map Connection.veiled).filter fun c => filters.all (·.accepts c) := by
  simp only [List.filter_map, Function.comp_def, ConnectionFilter.accepts_veiled]

theorem echoes_list (filters : List ConnectionFilter) :
    Echoes key (fun cs cs' => cs.map Connection.veiled = cs'.map Connection.veiled)
      (Cache.list filters) (Cache.list filters) := by
  have hlisted : Echoes key (fun cs cs' => cs.map Connection.veiled = cs'.map Connection.veiled)
      (do return (← Program.act .connections).filter fun c => filters.all (·.accepts c))
      (do return (← Program.act .connections).filter fun c => filters.all (·.accepts c)) := by
    refine .call trivial fun cs cs' h => .done ?_
    rw [veiled_filter, h, veiled_filter]
  simp only [Cache.list, Cache.listBy, Program.act_bind]
  refine .call trivial fun cs cs' h => ?_
  have hempty : cs.isEmpty = cs'.isEmpty := by
    rw [← List.isEmpty_map (f := Connection.veiled), h, List.isEmpty_map]
  simp only [hempty]
  split
  · exact echoes_refreshBy.bind fun _ _ _ => hlisted
  · exact hlisted

end

theorem echoes_persist {key : String} (name : String) (cs : List Condition)
    (r : Except PassError PassOutcome) :
    Echoes key Eq (Health.persist name cs r) (Health.persist name cs r) := by
  refine .heard trivial fun written => ?_
  cases written <;> exact .done rfl

theorem echoes_pass {key : String} (interval : Span) (name : String) :
    Echoes key Eq (Health.pass interval name) (Health.pass interval name) := by
  refine .heard trivial fun found => ?_
  match found with
  | .error e => exact .done rfl
  | .ok none => exact .done rfl
  | .ok (some d) =>
    refine .call trivial fun c c' h => ?_
    match c, c', h with
    | none, none, _ => exact .heard trivial fun _ => echoes_persist _ _ _
    | some c, some c', h =>
      have hclient : c.client.veiled = c'.client.veiled :=
        (congrArg Connection.client (Option.some.inj h) :)
      refine .probe hclient fun answer => ?_
      exact .heard trivial fun _ => echoes_persist _ _ _

end ClusterFleet.Secrecy
