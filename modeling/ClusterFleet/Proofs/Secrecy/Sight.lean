import ClusterFleet.Proofs.Secrecy.Echo

namespace ClusterFleet.Secrecy
open Registration

inductive Job where
  | register (d : Descriptor)
  | unregister (name : String)
  | refresh
  | get (name : String) (mayRefresh : Bool)
  | list (filters : List ConnectionFilter)
  | check (name : String)

inductive Report where
  | registered (r : Except RegistrationError Unit)
  | unregistered
  | refreshed (count : Nat)
  | got (c : Option Connection)
  | listed (cs : List Connection)
  | checked (r : Except PassError PassOutcome)

def Job.program (settings : RegistrationSettings) (interval : Span) : Job → Program Report
  | .register d => do return .registered (← Registration.register settings d)
  | .unregister name => do
    Registration.unregister name
    return .unregistered
  | .refresh => do return .refreshed (← Registration.refresh settings)
  | .get name mayRefresh => do return .got (← Cache.get name mayRefresh)
  | .list filters => do return .listed (← Cache.list filters)
  | .check name => do return .checked (← Health.pass interval name)

namespace Report

def veiled : Report → Report
  | .got c => .got (c.map Connection.veiled)
  | .listed cs => .listed (cs.map Connection.veiled)
  | r => r

def errorText? (words : Wording) : Report → Option String
  | .registered (.error e) => some (e.text words)
  | .checked (.error e) => some (e.text words.store)
  | _ => none

def connections : Report → List Connection
  | .got c => c.toList
  | .listed cs => cs
  | _ => []

end Report

theorem echoes_program {key : String} (settings : RegistrationSettings) (interval : Span)
    (job : Job) : Echoes key (fun r r' => r.veiled = r'.veiled) (job.program settings interval)
      (job.program settings interval) := by
  cases job with
  | register d => exact (echoes_register settings d).bind fun _ _ h => .done (h ▸ rfl)
  | unregister name => exact .heard (a := .erase name) trivial fun _ => .done rfl
  | refresh => exact (echoes_refresh settings).bind fun _ _ h => .done (h ▸ rfl)
  | get name mayRefresh =>
    exact (echoes_get name mayRefresh).bind fun _ _ h => .done (congrArg Report.got h)
  | list filters => exact (echoes_list filters).bind fun _ _ h => .done (congrArg Report.listed h)
  | check name => exact (echoes_pass interval name).bind fun _ _ h => .done (h ▸ rfl)

def goOn (options : ClientOptions) (s : Crew Job Report) (m : Move) : Crew Job Report :=
  match s.tasks m.task with
  | some t =>
    let (p, w) := advance options m t.rest s.world
    s.put m.task ⟨t.call, p⟩ w
  | none => s

def run (options : ClientOptions) (s : Crew Job Report) (moves : List Move) : Crew Job Report :=
  moves.foldl (goOn options) s

def begin (settings : RegistrationSettings) (interval : Span) (jobs : Nat → Option Job)
    (w : World) : Crew Job Report where
  world := w
  tasks := fun i => (jobs i).map fun job => ⟨job, job.program settings interval⟩

structure Level (key : String) (s t : Crew Job Report) : Prop where
  worlds : Alike key s.world t.world
  tasks : ∀ i, Option.Rel (fun a b => a.call = b.call ∧
    Echoes key (fun r r' => r.veiled = r'.veiled) a.rest b.rest) (s.tasks i) (t.tasks i)

theorem level_begin {key : String} (settings : RegistrationSettings) (interval : Span)
    (jobs : Nat → Option Job) {w w' : World} (h : Alike key w w') :
    Level key (begin settings interval jobs w) (begin settings interval jobs w') where
  worlds := h
  tasks i := by
    cases hj : jobs i with
    | none => simp [begin, hj]
    | some job =>
      simp only [begin, hj, Option.map_some]
      exact .some ⟨rfl, echoes_program settings interval job⟩

section
variable {key : String} {options : ClientOptions} {s t : Crew Job Report} {m : Move}

theorem Level.goes (h : Level key s t) (hm : IsBlind m) :
    Level key (goOn options s m) (goOn options t m) := by
  unfold goOn
  match s.tasks m.task, t.tasks m.task, h.tasks m.task with
  | none, none, _ => exact h
  | some a, some b, .some ⟨hcall, hecho⟩ =>
    obtain ⟨hp, hw⟩ := hecho.advance options hm h.worlds
    refine ⟨hw, fun i => ?_⟩
    by_cases hi : i = m.task
    · subst hi
      simp only [Crew.tasks_put_self]
      exact .some ⟨hcall, hp⟩
    · simp only [Crew.tasks_put_of_ne _ hi]
      exact h.tasks i

theorem Level.run (h : Level key s t) {moves : List Move} (hmoves : ∀ m ∈ moves, IsBlind m) :
    Level key (run options s moves) (run options t moves) := by
  induction moves generalizing s t with
  | nil => exact h
  | cons m moves ih =>
    obtain ⟨hm, hmoves⟩ := List.forall_mem_cons.1 hmoves
    exact ih (h.goes hm) hmoves

end

def descriptions (c : Connection) : List String :=
  [Description.ofConnection c, Description.ofRestConfig c.restConfig].flatMap fun p =>
    [p.oneLine, p.pretty]

inductive Progress where
  | underWay
  | crashed
  /-- A report without its tokens, the text of its error, and the connections in it described. -/
  | reported (r : Report) (errorText? : Option String) (descriptions : List String)

def progress (words : Wording) : Program Report → Progress
  | .done r => .reported r.veiled (r.errorText? words) (r.connections.flatMap descriptions)
  | .crash => .crashed
  | .call _ _ => .underWay

/-- All there is to be seen but the tokens themselves. -/
structure Sight where
  tasks : Nat → Option (Job × Progress)
  world : World
  /-- Of all connections in the cache. -/
  descriptions : List String

def sight (words : Wording) (s : Crew Job Report) : Sight where
  tasks i := (s.tasks i).map fun t => (t.call, progress words t.rest)
  world := veiledWorld s.world
  descriptions := s.world.connections.values.flatMap descriptions

theorem descriptions_veiled (c : Connection) : descriptions c.veiled = descriptions c := by
  simp only [descriptions, Description.ofConnection_veiled, Connection.restConfig_veiled,
    Description.ofRestConfig_veiled]

theorem flatMap_descriptions_veiled (cs : List Connection) :
    (cs.map Connection.veiled).flatMap descriptions = cs.flatMap descriptions := by
  simp only [List.flatMap_map, descriptions_veiled]

section
variable {key : String} {r r' : Report} {s t : Crew Job Report} (words : Wording)

theorem errorText?_veiled (r : Report) : r.veiled.errorText? words = r.errorText? words := by
  cases r <;> rfl

theorem connections_veiled (r : Report) :
    r.veiled.connections = r.connections.map Connection.veiled := by
  cases r with
  | got c => cases c <;> rfl
  | _ => rfl

theorem progress_done_congr (h : r.veiled = r'.veiled) :
    progress words (.done r) = progress words (.done r') := by
  have htext : r.errorText? words = r'.errorText? words := by
    rw [← errorText?_veiled words r, h, errorText?_veiled]
  have hdescribed : r.connections.flatMap descriptions = r'.connections.flatMap descriptions := by
    rw [← flatMap_descriptions_veiled, ← connections_veiled, h, connections_veiled,
      flatMap_descriptions_veiled]
  simp only [progress, h, htext, hdescribed]

theorem Echoes.progress {p p' : Program Report}
    (h : Echoes key (fun r r' => r.veiled = r'.veiled) p p') :
    progress words p = progress words p' := by
  cases h with
  | done h => exact progress_done_congr words h
  | _ => rfl

theorem Level.sight (h : Level key s t) : sight words s = sight words t := by
  have hdescribed : s.world.connections.values.flatMap descriptions =
      t.world.connections.values.flatMap descriptions := by
    rw [← flatMap_descriptions_veiled, h.worlds.values, flatMap_descriptions_veiled]
  have htasks (i : Nat) : (s.tasks i).map (fun t => (t.call, progress words t.rest)) =
      (t.tasks i).map fun t => (t.call, progress words t.rest) := by
    -- Equal calls, and programs that are equally far, look the same.
    match s.tasks i, t.tasks i, h.tasks i with
    | none, none, _ => rfl
    | some a, some b, .some ⟨hcall, hecho⟩ =>
      rw [Option.map_some, Option.map_some, hcall, hecho.progress words]
  exact (Sight.mk.injEq ..).mpr ⟨funext htasks, h.worlds.veiled, hdescribed⟩

end

/--
Whatever tasks do, and in whatever order they take turns: if two worlds differ in tokens that a
request can carry, and no remote cluster cares for the token, then the tasks come equally far and
report the same, with the same errors in the same words, and the worlds stay the same but for the
tokens. No description of a connection or of its configuration tells them apart.
-/
theorem sight_run_of_tokens (settings : RegistrationSettings) (interval : Span)
    (options : ClientOptions) (words : Wording) (jobs : Nat → Option Job) {w : World}
    {store' : Store} (hstores : w.store.DifferInTokens settings.tokenKey store') {moves : List Move}
    (hmoves : ∀ m ∈ moves, IsBlind m) :
    sight words (run options (begin settings interval jobs { w with store := store' }) moves) =
      sight words (run options (begin settings interval jobs w) moves) := by
  have halike : Alike settings.tokenKey w { w with store := store' } :=
    ⟨w.connections, store', w.journal, rfl, rfl, hstores, rfl⟩
  exact ((level_begin settings interval jobs halike).run hmoves).sight words |>.symm

def storeWith (token : String) : Store :=
  .memory {
    clusters := [("west", newcomer)]
    secrets := [("members/west-token", [("token", token)])] }

def worldWith (token : String) : World where
  store := storeWith token
  clock := { start := ⟨0, 0⟩ }

def watching : Nat → Option Job
  | 0 => some (.register newcomer)
  | 1 => some (.check "west")
  | 2 => some (.get "west" false)
  | _ => none

def turns : List Move :=
  [0, 0, 1, 0, 0, 1, 1, 1, 1, 2].map fun i =>
    { task := i, moment := { answer := fun _ => .response 200 [111, 107], reading := ⟨0, 0⟩ } }

theorem isBlind_turns : ∀ m ∈ turns, IsBlind m := by
  intro m hm
  obtain ⟨i, -, rfl⟩ := List.mem_map.1 hm
  exact fun _ _ _ => rfl

theorem differInTokens_storeWith {a b : String} (ha : IsToken (Text.trim a))
    (hb : IsToken (Text.trim b)) : (storeWith a).DifferInTokens "token" (storeWith b) := by
  refine .memory fun ns name => ?_
  simp only [MemoryStore.secret, Table.find?, List.lookup_cons, List.lookup_nil]
  split
  · refine .tokens ⟨fun k hk => ?_, .inr ⟨a, b, rfl, rfl, ha, hb⟩⟩
    have hne : (k == "token") = false := by simpa using hk
    simp [Table.find?, List.lookup_cons, hne]
  · exact .same _

/-- One of the tokens is stored with white space around it. -/
theorem sight_run_turns :
    (worldWith "first").store.DifferInTokens "token" (storeWith " second\n") ∧
    (∀ m ∈ turns, IsBlind m) ∧
    let s := run {} (begin {} (.ofSeconds 10) watching (worldWith "first")) turns
    let t := run {} (begin {} (.ofSeconds 10) watching (worldWith " second\n")) turns
    (s.world.connections.find? "west").map (·.restConfig.bearerToken) = some "first" ∧
      (t.world.connections.find? "west").map (·.restConfig.bearerToken) = some "second" ∧
      s.world.journal.probes.map (·.kubeconfig.token) = ["first"] ∧
      t.world.journal.probes.map (·.kubeconfig.token) = ["second"] ∧
      ∀ words, sight words t = sight words s := by
  have hfirst : IsToken (Text.trim "first") :=
    ⟨by decide +kernel, Client.isHeaderValue_iff.2 (by decide +kernel)⟩
  have hsecond : IsToken (Text.trim " second\n") :=
    ⟨by decide +kernel, Client.isHeaderValue_iff.2 (by decide +kernel)⟩
  have hstores := differInTokens_storeWith hfirst hsecond
  refine ⟨hstores, isBlind_turns, ?_, ?_, ?_, ?_, ?_⟩
  · decide +kernel
  · decide +kernel
  · decide +kernel
  · decide +kernel
  · intro words
    have hsight := sight_run_of_tokens {} (.ofSeconds 10) {} words watching
      (w := worldWith "first") hstores isBlind_turns
    exact hsight

end ClusterFleet.Secrecy
