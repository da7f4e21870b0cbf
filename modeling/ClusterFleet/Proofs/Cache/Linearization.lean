import ClusterFleet.Proofs.Cache.Stage
import ClusterFleet.Proofs.Registration.Provenance
import ClusterFleet.Proofs.Table
import ClusterFleet.Proofs.Trail

namespace ClusterFleet

namespace World

theorem ordered_step {i : Nat} {w w' : World} {a : Action} {r : a.Reply}
    (hw : w.Answers i a r w') (h : w.connections.Ordered) : w'.connections.Ordered := by
  rw [hw.sameCache.connections, connections_step]
  cases a with
  | insert c => exact h.insert c.name c
  | erase name => exact h.erase name
  | clear => exact List.Pairwise.nil
  | _ => exact h

end World

namespace Cache

/-- It was put in under its name, and nothing has touched the name since. -/
def Live {κ : Type} (name : String) (c : Connection) (log : List (Event κ)) : Prop :=
  ∃ i u later earlier, log = later ++ .acted i (.insert c) u :: earlier ∧ c.name = name ∧
    ∀ e ∈ later, e.touches name = false

section
variable {κ ρ : Type} {work : κ → Program ρ} {w : World} {s : Crew κ ρ} {log : List (Event κ)}
  {name : String} {c : Connection}

theorem Live.cons (h : Live name c log) {e : Event κ} (he : e.touches name = false) :
    Live name c (e :: log) := by
  obtain ⟨i, u, later, earlier, rfl, hname, hlater⟩ := h
  exact ⟨i, u, e :: later, earlier, rfl, hname, List.forall_mem_cons.2 ⟨he, hlater⟩⟩

theorem find?_iff_live (hempty : w.connections = []) (h : Crew.Run work (.idle w) log s) :
    s.world.connections.find? name = some c ↔ Live name c log := by
  constructor
  · intro hfind
    induction h with
    | here =>
      rw [Crew.idle, hempty] at hfind
      cases hfind
    | @step s s' e log h hs ih =>
      rw [Crew.find?_step hs] at hfind
      cases e with
      | acted i a r =>
        change (if a.touches name then a.left? else s.world.connections.find? name) = _ at hfind
        by_cases ha : a.touches name
        · -- Of all that touches a name only an insertion leaves something there.
          rw [if_pos ha] at hfind
          cases a with
          | insert c' =>
            cases hfind
            exact ⟨i, r, [], log, rfl, of_decide_eq_true ha, nofun⟩
          | _ => cases hfind
        · rw [if_neg ha] at hfind
          exact (ih hfind).cons (Bool.eq_false_iff.2 ha)
      | _ => exact (ih hfind).cons rfl
  · rintro ⟨i, u, later, earlier, rfl, hname, hlater⟩
    exact Crew.find?_of_run h (decide_eq_true hname) hlater

theorem ordered_of_run (hempty : w.connections = []) (h : Crew.Run work (.idle w) log s) :
    s.world.connections.Ordered := by
  induction h with
  | here =>
    rw [Crew.idle, hempty]
    exact List.Pairwise.nil
  | step h hs ih =>
    cases hs with
    | begins => exact ih
    | acts _ hw => exact World.ordered_step hw ih
    | waits _ hw =>
      obtain ⟨_, rfl⟩ := World.eq_takeTurn_of_step hw
      exact ih
    | drops => exact ih

theorem mem_iff_live (hempty : w.connections = []) (h : Crew.Run work (.idle w) log s) :
    (name, c) ∈ s.world.connections ↔ Live name c log :=
  (Table.mem_iff_find? (ordered_of_run hempty h).nodup).trans (find?_iff_live hempty h)

theorem name_of_mem (hempty : w.connections = []) (h : Crew.Run work (.idle w) log s)
    (hc : (name, c) ∈ s.world.connections) : c.name = name := by
  obtain ⟨_, _, _, _, _, hname, _⟩ := (mem_iff_live hempty h).1 hc
  exact hname

theorem mem_values_iff_live (hempty : w.connections = []) (h : Crew.Run work (.idle w) log s) :
    c ∈ s.world.connections.values ↔ Live c.name c log := by
  rw [← mem_iff_live hempty h]
  constructor
  · intro hc
    obtain ⟨⟨name, c⟩, hmem, rfl⟩ := List.mem_map.1 hc
    rwa [name_of_mem hempty h hmem]
  · exact List.mem_map_of_mem

theorem nodup_values (hempty : w.connections = []) (h : Crew.Run work (.idle w) log s) :
    s.world.connections.values.Nodup := by
  have hkeys : s.world.connections.values.map (·.name) = s.world.connections.keys := by
    rw [Table.values, Table.keys, List.map_map]
    exact List.map_congr_left fun e he => name_of_mem hempty h he
  have hnodup := (ordered_of_run hempty h).nodup
  rw [← hkeys] at hnodup
  exact List.Nodup.of_map _ hnodup

end

/-- A listing, as far as it does not depend on whether the cache was found empty. -/
def collect (tests : List (Connection → Bool)) : Program (List Connection) := do
  let cs ← Program.act .connections
  return cs.filter fun c => tests.all (· c)

theorem collectBy_eq (run : RefreshHook → Program Unit) (tests : List (Connection → Bool)) :
    collectBy run tests = .call .connections fun first =>
      if first.isEmpty then refreshBy run >>= fun _ => collect tests else collect tests := rfl

inductive Request where
  | add (c : Connection)
  | delete (name : String)
  | reset
  | get (name : String) (mayRefresh : Bool)
  | list (tests : List (Connection → Bool))
  /-- Whatever else goes on. -/
  | other (p : Program Unit)

def Request.program (run : RefreshHook → Program Unit) : Request → Program Outcome
  | .add c => do
    Program.act (.insert c)
    return .finished
  | .delete name => do
    Program.act (.erase name)
    return .finished
  | .reset => do
    Program.act .clear
    return .finished
  | .get name mayRefresh => do return .found (← getBy run name mayRefresh)
  | .list tests => do return .listed (← collectBy run tests)
  | .other p => do
    p
    return .finished

/-- The task has done this deed after these others; until then the log was `earlier`. -/
def Comes {κ : Type} (log : List (Event κ)) (i : Nat) (before : List Deed) (d : Deed)
    (earlier : List (Event κ)) : Prop :=
  deeds i earlier = before ∧ ∃ later, log = later ++ .acted i d.action d.reply :: earlier

def Looked {κ : Type} (name : String) (r : Option Connection) (log : List (Event κ)) : Prop :=
  ∀ c, r = some c ↔ Live name c log

/-- What is live has been collected, each connection once. -/
def Collected {κ : Type} (cs : List Connection) (log : List (Event κ)) : Prop :=
  cs.Nodup ∧ ∀ c, c ∈ cs ↔ Live c.name c log

inductive Gets (run : RefreshHook → Program Unit) (log : List (Event Request)) (i : Nat)
    (name : String) (mayRefresh : Bool) (r : Option Connection) : Prop
  | first {earlier : List (Event Request)} (h : Comes log i [] ⟨.lookUp name, r⟩ earlier)
    (hr : Looked name r earlier) (hstop : r ≠ none ∨ mayRefresh = false)
  | second {early earlier : List (Event Request)} {ds : List Deed}
    (h₁ : Comes log i [] ⟨.lookUp name, none⟩ early) (hmiss : Looked name none early)
    (hallow : mayRefresh = true) (hrefresh : (refreshBy run).Trail ds (.done ()))
    (h₂ : Comes log i (⟨.lookUp name, none⟩ :: ds) ⟨.lookUp name, r⟩ earlier)
    (hr : Looked name r earlier)

/-- How a task comes to a listing. It refreshes the cache just when it has found it empty. -/
structure Lists (run : RefreshHook → Program Unit) (log : List (Event Request)) (i : Nat)
    (tests : List (Connection → Bool)) (cs : List Connection) : Prop where
  checks : ∃ early first, Comes log i [] ⟨.connections, first⟩ early ∧ Collected first early ∧
    ∃ ds, (if first = [] then (refreshBy run).Trail ds (.done ()) else ds = []) ∧
      ∃ earlier all, Comes log i (⟨.connections, first⟩ :: ds) ⟨.connections, all⟩ earlier ∧
        Collected all earlier ∧
          ∀ c, c ∈ cs ↔ Live c.name c earlier ∧ ∀ test ∈ tests, test c = true
  once : cs.Nodup

section
variable {κ ρ : Type} {work : κ → Program ρ} {w : World} {s : Crew κ ρ}
  {log earlier : List (Event κ)} {i : Nat} {before after : List Deed} {d : Deed}

theorem comes_of_deeds (h : deeds i log = before ++ d :: after) :
    ∃ earlier, Comes log i before d earlier := by
  obtain ⟨later, earlier, hlog, hbefore⟩ := exists_of_deeds h
  exact ⟨earlier, hbefore, later, hlog⟩

/-- What an action is answered, it is answered by the world that the log up to it leads to. -/
theorem exists_answers_of_comes (h : Crew.Run work (.idle w) log s)
    (hc : Comes log i before d earlier) :
    ∃ s' w', Crew.Run work (.idle w) earlier s' ∧ s'.world.Answers i d.action d.reply w' := by
  obtain ⟨_, later, rfl⟩ := hc
  obtain ⟨s', h', _⟩ := h.cut
  cases h' with
  | step h₀ hs =>
    cases hs with
    | acts _ hw => exact ⟨_, _, h₀, hw⟩

theorem Comes.looked (hempty : w.connections = []) (h : Crew.Run work (.idle w) log s)
    {name : String} {r : Option Connection} (hc : Comes log i before ⟨.lookUp name, r⟩ earlier) :
    Looked name r earlier := by
  obtain ⟨s', w', h', hw⟩ := exists_answers_of_comes h hc
  obtain rfl : r = s'.world.connections.find? name := hw.of_lookUp
  exact fun c => find?_iff_live hempty h'

theorem Comes.collected (hempty : w.connections = []) (h : Crew.Run work (.idle w) log s)
    {cs : List Connection} (hc : Comes log i before ⟨.connections, cs⟩ earlier) :
    Collected cs earlier := by
  obtain ⟨s', w', h', hw⟩ := exists_answers_of_comes h hc
  obtain rfl : cs = s'.world.connections.values := hw.of_connections
  exact ⟨nodup_values hempty h', fun c => mem_values_iff_live hempty h'⟩

end

section
variable {run : RefreshHook → Program Unit} {ds : List Deed}

theorem trail_getBy {name : String} {mayRefresh : Bool} {r : Option Connection}
    (h : (getBy run name mayRefresh).Trail ds (.done r)) :
    ds = [⟨.lookUp name, r⟩] ∧ (r ≠ none ∨ mayRefresh = false) ∨
    mayRefresh = true ∧ ∃ es, (refreshBy run).Trail es (.done ()) ∧
      ds = ⟨.lookUp name, none⟩ :: es ++ [⟨.lookUp name, r⟩] := by
  obtain ⟨found, es, rfl, hrest⟩ := Program.Trail.of_call h
  cases found with
  | some c =>
    obtain ⟨rfl, hr⟩ := hrest.of_done
    cases hr
    exact .inl ⟨rfl, .inl nofun⟩
  | none =>
    cases mayRefresh with
    | false =>
      obtain ⟨rfl, hr⟩ := hrest.of_done
      cases hr
      exact .inl ⟨rfl, .inr rfl⟩
    | true =>
      have hrest : (refreshBy run >>= fun _ => Program.act (.lookUp name)).Trail es (.done r) :=
        hrest
      obtain ⟨_, es, fs, rfl, hrefresh, hagain⟩ := Program.Trail.of_bind hrest
      obtain ⟨r', fs, rfl, hdone⟩ := Program.Trail.of_call hagain
      obtain ⟨rfl, hr⟩ := hdone.of_done
      cases hr
      exact .inr ⟨rfl, es, hrefresh, rfl⟩

theorem trail_collect {tests : List (Connection → Bool)} {cs : List Connection}
    (h : (collect tests).Trail ds (.done cs)) :
    ∃ all, ds = [⟨.connections, all⟩] ∧ cs = all.filter fun c => tests.all (· c) := by
  obtain ⟨all, es, rfl, hdone⟩ := Program.Trail.of_call h
  obtain ⟨rfl, hcs⟩ := hdone.of_done
  cases hcs
  exact ⟨all, rfl, rfl⟩

theorem trail_collectBy {tests : List (Connection → Bool)} {cs : List Connection}
    (h : (collectBy run tests).Trail ds (.done cs)) :
    ∃ first es all, ds = ⟨.connections, first⟩ :: es ++ [⟨.connections, all⟩] ∧
      (if first = [] then (refreshBy run).Trail es (.done ()) else es = []) ∧
        cs = all.filter fun c => tests.all (· c) := by
  rw [collectBy_eq] at h
  obtain ⟨first, es, rfl, hrest⟩ := Program.Trail.of_call h
  cases first with
  | nil =>
    obtain ⟨_, es, fs, rfl, hrefresh, hcollect⟩ := Program.Trail.of_bind hrest
    obtain ⟨all, rfl, hcs⟩ := trail_collect hcollect
    exact ⟨[], es, all, rfl, hrefresh, hcs⟩
  | cons c first =>
    obtain ⟨all, rfl, hcs⟩ := trail_collect hrest
    exact ⟨c :: first, [], all, rfl, rfl, hcs⟩

variable {w : World} {s : Crew Request Outcome} {log : List (Event Request)} {i : Nat} {v : Outcome}

theorem gets_of_run (hempty : w.connections = [])
    (h : Crew.Run (Request.program run) (.idle w) log s) {name : String} {mayRefresh : Bool}
    (ht : s.tasks i = some ⟨.get name mayRefresh, .done v⟩) :
    ∃ r, v = .found r ∧ Gets run log i name mayRefresh r := by
  obtain ⟨r, ds, es, hlog, hget, hend⟩ := Program.Trail.of_bind (trail_of_done h ht)
  obtain ⟨rfl, hv⟩ := hend.of_done
  cases hv
  refine ⟨r, rfl, ?_⟩
  rw [List.append_nil] at hlog
  obtain ⟨rfl, hstop⟩ | ⟨rfl, es, hrefresh, rfl⟩ := trail_getBy hget
  · obtain ⟨earlier, hc⟩ : ∃ earlier, Comes log i [] ⟨.lookUp name, r⟩ earlier :=
      comes_of_deeds hlog
    exact .first hc (hc.looked hempty h) hstop
  · obtain ⟨early, h₁⟩ : ∃ early, Comes log i [] ⟨.lookUp name, none⟩ early := comes_of_deeds hlog
    obtain ⟨earlier, h₂⟩ := comes_of_deeds hlog
    exact .second h₁ (h₁.looked hempty h) rfl hrefresh h₂ (h₂.looked hempty h)

theorem lists_of_run (hempty : w.connections = [])
    (h : Crew.Run (Request.program run) (.idle w) log s) {tests : List (Connection → Bool)}
    (ht : s.tasks i = some ⟨.list tests, .done v⟩) :
    ∃ cs, v = .listed cs ∧ Lists run log i tests cs := by
  obtain ⟨cs, ds, es, hlog, hlist, hend⟩ := Program.Trail.of_bind (trail_of_done h ht)
  obtain ⟨rfl, hv⟩ := hend.of_done
  cases hv
  refine ⟨cs, rfl, ?_⟩
  rw [List.append_nil] at hlog
  obtain ⟨first, es, all, rfl, hes, rfl⟩ := trail_collectBy hlist
  obtain ⟨early, h₁⟩ : ∃ early, Comes log i [] ⟨.connections, first⟩ early := comes_of_deeds hlog
  obtain ⟨earlier, h₂⟩ := comes_of_deeds hlog
  have hall := h₂.collected hempty h
  refine ⟨⟨early, first, h₁, h₁.collected hempty h, es, hes, earlier, all, h₂, hall, ?_⟩,
    hall.1.filter _⟩
  intro c
  rw [List.mem_filter, hall.2 c, List.all_eq_true]

end

/-- All accesses are those of one map, in the order of the log. -/
structure Linearized (run : RefreshHook → Program Unit) (log : List (Event Request))
    (s : Crew Request Outcome) : Prop where
  /-- Each task goes by its program, until it is dropped. -/
  order : ∀ i t, s.tasks i = some t →
    ∃ p, (t.call.program run).Trail (deeds i log) p ∧ (t.rest = p ∨ t.rest = .crash)
  looked : ∀ i name r later earlier, log = later ++ .acted i (.lookUp name) r :: earlier →
    Looked name r earlier
  collected : ∀ i cs later earlier, log = later ++ .acted i .connections cs :: earlier →
    Collected cs earlier
  gets : ∀ i name mayRefresh v, s.tasks i = some ⟨.get name mayRefresh, .done v⟩ →
    ∃ r, v = .found r ∧ Gets run log i name mayRefresh r
  lists : ∀ i tests v, s.tasks i = some ⟨.list tests, .done v⟩ →
    ∃ cs, v = .listed cs ∧ Lists run log i tests cs
  entries : ∀ name c, (name, c) ∈ s.world.connections ↔ Live name c log
  named : ∀ name c, (name, c) ∈ s.world.connections → c.name = name
  distinct : s.world.connections.keys.Nodup

theorem linearized_of_run {run : RefreshHook → Program Unit} {w : World}
    {log : List (Event Request)} {s : Crew Request Outcome} (hempty : w.connections = [])
    (h : Crew.Run (Request.program run) (.idle w) log s) : Linearized run log s where
  order _ _ := trail_of_run h
  looked _ _ _ later _ hlog := Comes.looked hempty h ⟨rfl, later, hlog⟩
  collected _ _ later _ hlog := Comes.collected hempty h ⟨rfl, later, hlog⟩
  gets _ _ _ _ := gets_of_run hempty h
  lists _ _ _ := lists_of_run hempty h
  entries _ _ := mem_iff_live hempty h
  named _ _ := name_of_mem hempty h
  distinct := (ordered_of_run hempty h).nodup

def member (name owner : String) : Connection where
  name := name
  operatorNamespace := "operator"
  owner := owner
  apiEndpoint := "https://cluster.example"
  secretName := "token"
  restConfig := ⟨"https://cluster.example", false, none, "token"⟩
  client := ⟨⟨"https://cluster.example", false, none, "token"⟩, .ofSeconds 3, .ofSeconds 3⟩
  status := .empty

def bustle : World where
  hook := some (.preload 0 [member "east" "host"])
  store := .memory {}
  clock := { start := ⟨0, 0⟩ }

def hosted : List (Connection → Bool) := [(·.owner = "host")]

theorem bustle_run : ∃ log s, Crew.Run (Request.program RefreshHook.run) (.idle bustle) log s ∧
    s.tasks 0 = some ⟨.list hosted, .done (.listed [member "east" "host"])⟩ ∧
      s.tasks 2 = some ⟨.get "west" true, .done (.found (some (member "west" "member")))⟩ := by
  have h₀ : Crew.Run (Request.program RefreshHook.run) (.idle bustle) _ _ :=
    Crew.Run.here.step (.begins (i := 0) (.list hosted) rfl)
  have h₁ := h₀.step (.begins (i := 1) (.add (member "west" "member")) rfl)
  have h₂ := h₁.step (.begins (i := 2) (.get "west" true) rfl)
  have h₃ := h₂.step (.acts (i := 0) (a := .connections) rfl (.cache rfl rfl))
  have h₄ := h₃.step (.acts (i := 0) (a := .refreshCount) rfl (.cache rfl rfl))
  have h₅ := h₄.step (.acts (i := 0) (a := .takeTurn) rfl (.cache rfl rfl))
  have h₆ := h₅.step (.acts (i := 0) (a := .refreshCount) rfl (.cache rfl rfl))
  have h₇ := h₆.step (.acts (i := 0) (a := .refreshHook) rfl (.cache rfl rfl))
  have h₈ := h₇.step (.acts (i := 1) (a := .insert (member "west" "member")) rfl (.cache rfl rfl))
  have h₉ := h₈.step (.acts (i := 0) (a := .hookBegins) rfl (.cache rfl rfl))
  have h₁₀ := h₉.step (.acts (i := 0) (a := .insert (member "east" "host")) rfl (.cache rfl rfl))
  have h₁₁ := h₁₀.step (.acts (i := 2) (a := .lookUp "west") rfl (.cache rfl rfl))
  have h₁₂ := h₁₁.step (.acts (i := 0) (a := .countRefresh) rfl (.cache rfl rfl))
  have h₁₃ := h₁₂.step (.acts (i := 0) (a := .endTurn) rfl (.cache rfl rfl))
  have h₁₄ := h₁₃.step (.acts (i := 0) (a := .connections) rfl (.cache rfl rfl))
  exact ⟨_, _, h₁₄, rfl, rfl⟩

theorem linearized_bustle : ∃ log s, bustle.connections = [] ∧
    Crew.Run (Request.program RefreshHook.run) (.idle bustle) log s ∧
      s.tasks 0 = some ⟨.list hosted, .done (.listed [member "east" "host"])⟩ ∧
        s.tasks 2 = some ⟨.get "west" true, .done (.found (some (member "west" "member")))⟩ ∧
          Linearized RefreshHook.run log s := by
  obtain ⟨log, s, h, hlist, hget⟩ := bustle_run
  exact ⟨log, s, rfl, h, hlist, hget, linearized_of_run rfl h⟩

end Cache
end ClusterFleet
