import ClusterFleet.Proofs.Cache.Turn
import Mathlib.Algebra.Group.Nat.Defs

namespace ClusterFleet

namespace Event

variable {κ : Type}

def reads (i : Nat) : Event κ → Bool
  | .acted j .refreshCount _ => j = i
  | _ => false

/-- A run of the hook begins as the hook is fetched. -/
def starts (i : Nat) : Event κ → Bool
  | .acted j .refreshHook _ => j = i
  | _ => false

def counts : Event κ → Bool
  | .acted _ .countRefresh _ => true
  | _ => false

/-- A run of the hook ends with its count, or with the task. -/
def ends (i : Nat) : Event κ → Bool
  | .acted j .countRefresh _ => j = i
  | .dropped j => j = i
  | _ => false

end Event

namespace Cache

section
variable {κ : Type}

def completions (log : List (Event κ)) : Nat := log.countP Event.counts

def starts (i : Nat) (log : List (Event κ)) : Nat := log.countP (Event.starts i)

/-- How many refreshes were counted since the task first read the counter. -/
def heard (i : Nat) : List (Event κ) → Option Nat
  | [] => none
  | e :: log =>
    if e.reads i then some ((heard i log).getD 0)
    else if e.counts then (heard i log).map (· + 1)
    else heard i log

def underWay (i : Nat) : List (Event κ) → Bool
  | [] => false
  | e :: log => if e.starts i then true else if e.ends i then false else underWay i log

/-- By what the log tells, the run of `p` that the task began has come to a program. -/
inductive Reached (i : Nat) (p : Program Unit) : List (Event κ) → Program Unit → Prop
  | start {log : List (Event κ)} (r : Option RefreshHook) :
    Reached i p (.acted i .refreshHook r :: log) p
  | own {log : List (Event κ)} {a : Action} {next : a.Reply → Program Unit}
    (h : Reached i p log (.call a next)) (r : a.Reply) : Reached i p (.acted i a r :: log) (next r)
  | other {log : List (Event κ)} {q : Program Unit} {e : Event κ} (h : Reached i p log q)
    (he : e.task ≠ i) : Reached i p (e :: log) q

variable {i : Nat} {e : Event κ} {log : List (Event κ)}

structure Silent (e : Event κ) (i : Nat) : Prop where
  reads : e.reads i = false
  starts : e.starts i = false
  ends : e.ends i = false

theorem silent_of_ne (h : e.task ≠ i) : Silent e i := by
  -- Each mark asks for the task of the event first.
  refine ⟨?_, ?_, ?_⟩
  · unfold Event.reads
    split
    · exact decide_eq_false h
    · rfl
  · unfold Event.starts
    split
    · exact decide_eq_false h
    · rfl
  · unfold Event.ends
    split
    · exact decide_eq_false h
    · exact decide_eq_false h
    · rfl

theorem starts_silent (h : Silent e i) : starts i (e :: log) = starts i log := by
  simp [starts, h.starts]

theorem underWay_silent (h : Silent e i) : underWay i (e :: log) = underWay i log := by
  simp [underWay, h.starts, h.ends]

theorem heard_silent (h : Silent e i) (hn : heard i log = none) : heard i (e :: log) = none := by
  simp [heard, h.reads, hn]

theorem counts_of_reads (h : e.reads i = true) : e.counts = false := by
  unfold Event.reads at h
  split at h
  · rfl
  · cases h

theorem heard_cons {n : Nat} (h : heard i log = some n) (e : Event κ) :
    heard i (e :: log) = some (n + if e.counts then 1 else 0) := by
  by_cases hr : e.reads i = true
  · simp [heard, hr, h, counts_of_reads hr]
  · by_cases hc : e.counts = true <;> simp [heard, hr, hc, h]

theorem completions_cons (e : Event κ) (log : List (Event κ)) :
    completions (e :: log) = completions log + if e.counts then 1 else 0 := by
  simp [completions, List.countP_cons]

theorem heard_append {n : Nat} (h : heard i log = some n) (later : List (Event κ)) :
    heard i (later ++ log) = some (n + completions later) := by
  induction later with
  | nil => exact h
  | cons e later ih => rw [List.cons_append, heard_cons ih, completions_cons, Nat.add_assoc]

theorem heard_le {n : Nat} (h : heard i log = some n) : n ≤ completions log := by
  induction log generalizing n with
  | nil => cases h
  | cons e log ih =>
    rw [completions_cons]
    cases hl : heard i log with
    | some m =>
      have hm := ih hl
      rw [heard_cons hl, Option.some_inj] at h
      omega
    | none =>
      -- Only the first reading of the counter brings a number in.
      have hn : n = 0 := by
        by_cases hr : e.reads i = true
        · simpa [heard, hr, hl] using h.symm
        · simp [heard, hr, hl] at h
      omega

end

section
variable {ρ : Type}

abbrev toLeave (k : Unit → Program ρ) : Program ρ := .call .endTurn k

abbrev toCount (k : Unit → Program ρ) : Program ρ := .call .countRefresh fun _ => toLeave k

abbrev toFetch (run : RefreshHook → Program Unit) (k : Unit → Program ρ) : Program ρ :=
  .call .refreshHook fun
    | some hook => run hook >>= fun _ => toCount k
    | none => toCount k

abbrev toCheck (run : RefreshHook → Program Unit) (seen : UInt64) (k : Unit → Program ρ) :
    Program ρ :=
  .call .refreshCount fun count => if count = seen then toFetch run k else toLeave k

abbrev toQueue (run : RefreshHook → Program Unit) (seen : UInt64) (k : Unit → Program ρ) :
    Program ρ :=
  .call .takeTurn fun _ => toCheck run seen k

abbrev toRead (run : RefreshHook → Program Unit) (k : Unit → Program ρ) : Program ρ :=
  .call .refreshCount fun seen => toQueue run seen k

theorem refreshBy_bind (run : RefreshHook → Program Unit) (k : Unit → Program ρ) :
    refreshBy run >>= k = toRead run k := by
  -- The way back from the check is the same whether or not the hook was run.
  have hs : ∀ seen, (refreshSince run seen >>= fun _ => .call .endTurn k) =
      toCheck run seen k := by
    intro seen
    simp only [refreshSince, toCheck, Program.act_bind, Program.call_bind]
    congr 1
    funext count
    split
    · simp only [toFetch, Program.call_bind]
      congr 1
      funext hook
      cases hook with
      | none => rfl
      | some h =>
        simp only [bind_assoc]
        rfl
    · rfl
  simp only [refreshBy, bind_assoc, Program.act_bind, Program.call_bind, hs, toRead, toQueue]

end

end Cache

def Action.isTurn : Action → Bool
  | .refreshCount | .takeTurn | .endTurn | .countRefresh | .refreshHook => true
  | _ => false

def Program.Quiet {α : Type} : Program α → Prop
  | .done _ => True
  | .crash => True
  | .call a next => a.isTurn = false ∧ ∀ r, (next r).Quiet

theorem Program.Quiet.bind {α β : Type} {p : Program α} {f : α → Program β} (h : p.Quiet)
    (hf : ∀ a, (f a).Quiet) : (p >>= f).Quiet := by
  induction p with
  | done a => exact hf a
  | crash => trivial
  | call a next ih => exact ⟨h.1, fun r => ih r (h.2 r)⟩

namespace Cache

/-- No run of the hook comes to trigger a refresh itself. -/
def Flat {κ : Type} (body : Program Unit) (log : List (Event κ)) : Prop :=
  ∀ i later earlier, log = later ++ earlier → ∀ a next, Reached i body earlier (.call a next) →
    a.isTurn = false

theorem Flat.of_append {κ : Type} {body : Program Unit} {later log : List (Event κ)}
    (h : Flat body (later ++ log)) : Flat body log := by
  rintro i later' earlier rfl
  exact h i (later ++ later') earlier (List.append_assoc ..).symm

theorem Reached.quiet {κ : Type} {i : Nat} {body q : Program Unit} {log : List (Event κ)}
    (h : Reached i body log q) (hb : body.Quiet) : q.Quiet := by
  induction h with
  | start r => exact hb
  | own _ r ih => exact ih.2 r
  | other _ _ ih => exact ih

theorem flat_of_quiet {κ : Type} {body : Program Unit} (h : body.Quiet) (log : List (Event κ)) :
    Flat body log := by
  intro i later earlier _ a next hr
  exact (hr.quiet h).1

inductive Call where
  | get (name : String) (mayRefresh : Bool)
  | list (filters : List ConnectionFilter)
  /-- Whatever else goes on. -/
  | other (p : Program Unit) (quiet : p.Quiet)

inductive Outcome where
  | found (c : Option Connection)
  | listed (cs : List Connection)
  | finished

def Call.program (run : RefreshHook → Program Unit) : Call → Program Outcome
  | .get name mayRefresh => do return .found (← getBy run name mayRefresh)
  | .list filters => do return .listed (← listBy run filters)
  | .other p _ => do
    p
    return .finished

/-- The outcomes that a call may have without a refresh. -/
def Call.spares : Call → Outcome → Bool
  | .get _ true, .found none => false
  | _, _ => true

/-- Before the counter has been read. -/
inductive Leads (run : RefreshHook → Program Unit) (c : Call) : Program Outcome → Prop
  | reads {p : Program Outcome} {k : Unit → Program Outcome} (hp : p = toRead run k)
    (hk : ∀ u, (k u).Quiet) : Leads run c p
  | calls {a : Action} {next : a.Reply → Program Outcome} (ha : a.isTurn = false)
    (h : ∀ r, Leads run c (next r)) : Leads run c (.call a next)
  | ends {v : Outcome} (h : c.spares v) : Leads run c (.done v)
  | crashes : Leads run c .crash

theorem leads_of_quiet {run : RefreshHook → Program Unit} {c : Call} {p : Program Unit}
    (hp : p.Quiet) {v : Outcome} (hv : c.spares v) : Leads run c (p >>= fun _ => .done v) := by
  induction p with
  | done _ => exact .ends hv
  | crash => exact .crashes
  | call a next ih => exact .calls hp.1 fun r => ih r (hp.2 r)

theorem leads_program (run : RefreshHook → Program Unit) (c : Call) :
    Leads run c (c.program run) := by
  cases c with
  | get name mayRefresh =>
    simp only [Call.program, getBy, Program.act_bind, Program.call_bind]
    apply Leads.calls rfl
    intro r
    cases r with
    | some c => exact .ends (by cases mayRefresh <;> rfl)
    | none =>
      cases mayRefresh with
      | false => exact .ends rfl
      | true =>
        simp only [if_true, bind_assoc]
        exact .reads (refreshBy_bind run _) fun _ => ⟨rfl, fun _ => trivial⟩
  | list filters =>
    simp only [Call.program, listBy, Program.act_bind, Program.call_bind]
    apply Leads.calls rfl
    intro cs
    cases cs with
    | nil =>
      simp only [List.isEmpty_nil, if_true, bind_assoc]
      exact .reads (refreshBy_bind run _) fun _ => ⟨rfl, fun _ => trivial⟩
    | cons c cs => exact .calls rfl fun _ => .ends rfl
  | other p quiet => exact leads_of_quiet quiet rfl

structure Untouched (w : World) (log : List (Event Call)) (i : Nat) : Prop where
  outside : w.turn.Outside i
  unread : heard i log = none
  unstarted : starts i log = 0
  resting : underWay i log = false

/-- The call has read the counter, and `n` refreshes were counted since. -/
structure Waiting (log : List (Event Call)) (i n : Nat) : Prop where
  heard : heard i log = some n
  unstarted : starts i log = 0
  resting : underWay i log = false

/-- The call has begun a run of the hook, and no refresh was counted since it read the counter. -/
structure Running (log : List (Event Call)) (i : Nat) : Prop where
  heard : heard i log = some 0
  started : starts i log = 1
  underWay : underWay i log = true

/-- A refresh was counted since the call read the counter. -/
structure Served (log : List (Event Call)) (i : Nat) : Prop where
  heard : ∃ n, heard i log = some (n + 1)
  started : starts i log ≤ 1
  resting : underWay i log = false

/-- How far a task has come, with what is so of it in the world and in the log. -/
inductive Stage (run : RefreshHook → Program Unit) (hook : RefreshHook) (w : World)
    (log : List (Event Call)) (i : Nat) : Option (Task Call Outcome) → Prop
  | idle (hu : Untouched w log i) : Stage run hook w log i none
  | early {c : Call} {p : Program Outcome} (hu : Untouched w log i) (hp : Leads run c p) :
    Stage run hook w log i (some ⟨c, p⟩)
  | queueing {c : Call} {p : Program Outcome} {seen : UInt64} {k : Unit → Program Outcome} {n : Nat}
    (hp : p = toQueue run seen k) (hk : ∀ u, (k u).Quiet) (hw : Waiting log i n)
    (hn : w.refreshes = seen + UInt64.ofNat n) : Stage run hook w log i (some ⟨c, p⟩)
  | checking {c : Call} {p : Program Outcome} {seen : UInt64} {k : Unit → Program Outcome} {n : Nat}
    (hp : p = toCheck run seen k) (hk : ∀ u, (k u).Quiet) (hw : Waiting log i n)
    (hn : w.refreshes = seen + UInt64.ofNat n) (ht : w.turn.holder = some i) :
    Stage run hook w log i (some ⟨c, p⟩)
  | fetching {c : Call} {p : Program Outcome} {k : Unit → Program Outcome}
    (hp : p = toFetch run k) (hk : ∀ u, (k u).Quiet) (hw : Waiting log i 0)
    (ht : w.turn.holder = some i) : Stage run hook w log i (some ⟨c, p⟩)
  | running {c : Call} {p : Program Outcome} {q : Program Unit} {k : Unit → Program Outcome}
    (hp : p = q >>= fun _ => toCount k) (hk : ∀ u, (k u).Quiet) (hr : Reached i (run hook) log q)
    (hg : Running log i) (ht : w.turn.holder = some i) : Stage run hook w log i (some ⟨c, p⟩)
  | leaving {c : Call} {p : Program Outcome} {k : Unit → Program Outcome}
    (hp : p = toLeave k) (hk : ∀ u, (k u).Quiet) (hv : Served log i)
    (ht : w.turn.holder = some i) : Stage run hook w log i (some ⟨c, p⟩)
  | late {c : Call} {p : Program Outcome} (hp : p.Quiet) (hv : Served log i)
    (ho : w.turn.Outside i) : Stage run hook w log i (some ⟨c, p⟩)
  | gone {c : Call} (hs : starts i log ≤ 1) (hg : underWay i log = false) (ho : w.turn.Outside i) :
    Stage run hook w log i (some ⟨c, .crash⟩)

section
variable {run : RefreshHook → Program Unit} {hook : RefreshHook} {w w' : World}
  {log : List (Event Call)} {e : Event Call} {i : Nat} {t : Option (Task Call Outcome)}

theorem Stage.holder_of_underWay (h : Stage run hook w log i t) (hg : underWay i log = true) :
    w.turn.holder = some i := by
  cases h with
  | running _ _ _ _ ht => exact ht
  | idle hu => exact absurd hg (by simp [hu.resting])
  | early hu _ => exact absurd hg (by simp [hu.resting])
  | queueing _ _ hw _ => exact absurd hg (by simp [hw.resting])
  | checking _ _ hw _ _ => exact absurd hg (by simp [hw.resting])
  | fetching _ _ hw _ => exact absurd hg (by simp [hw.resting])
  | leaving _ _ hv _ => exact absurd hg (by simp [hv.resting])
  | late _ hv _ => exact absurd hg (by simp [hv.resting])
  | gone _ hr _ => exact absurd hg (by simp [hr])

theorem Stage.starts_le (h : Stage run hook w log i t) : starts i log ≤ 1 := by
  cases h with
  | running _ _ _ hg _ => have := hg.started; omega
  | idle hu => have := hu.unstarted; omega
  | early hu _ => have := hu.unstarted; omega
  | queueing _ _ hw _ => have := hw.unstarted; omega
  | checking _ _ hw _ _ => have := hw.unstarted; omega
  | fetching _ _ hw _ => have := hw.unstarted; omega
  | leaving _ _ hv _ => exact hv.started
  | late _ hv _ => exact hv.started
  | gone hs _ _ => exact hs

/-- A step of another task, seen from the task `i`. -/
structure Beside (w w' : World) (e : Event Call) (i : Nat) : Prop where
  task : e.task ≠ i
  outside : w.turn.Outside i → w'.turn.Outside i
  /-- As long as the task has the turn, it keeps it and nobody counts a refresh. -/
  holder : w.turn.holder = some i → w'.turn.holder = some i ∧ e.counts = false
  refreshes : w'.refreshes = w.refreshes + if e.counts then 1 else 0

theorem Untouched.silent (h : Untouched w log i) (he : Silent e i)
    (ho : w.turn.Outside i → w'.turn.Outside i) : Untouched w' (e :: log) i :=
  ⟨ho h.outside, heard_silent he h.unread, (starts_silent he).trans h.unstarted,
    (underWay_silent he).trans h.resting⟩

theorem Waiting.silent {n : Nat} (h : Waiting log i n) (he : Silent e i) :
    Waiting (e :: log) i (n + if e.counts then 1 else 0) :=
  ⟨heard_cons h.heard e, (starts_silent he).trans h.unstarted, (underWay_silent he).trans h.resting⟩

theorem Running.silent (h : Running log i) (he : Silent e i) (hc : e.counts = false) :
    Running (e :: log) i := by
  refine ⟨?_, (starts_silent he).trans h.started, (underWay_silent he).trans h.underWay⟩
  simpa [hc] using heard_cons h.heard e

theorem Served.silent (h : Served log i) (he : Silent e i) : Served (e :: log) i := by
  obtain ⟨n, hn⟩ := h.heard
  refine ⟨⟨n + if e.counts then 1 else 0, ?_⟩, (starts_silent he).symm ▸ h.started,
    (underWay_silent he).trans h.resting⟩
  rw [heard_cons hn, Nat.add_right_comm]

theorem Stage.beside (h : Stage run hook w log i t) (hb : Beside w w' e i) :
    Stage run hook w' (e :: log) i t := by
  -- The number heard and the counter of the world grow together.
  have hrefresh : ∀ (seen : UInt64) n, w.refreshes = seen + UInt64.ofNat n →
      w'.refreshes = seen + UInt64.ofNat (n + if e.counts then 1 else 0) := by
    intro seen n hn
    rw [hb.refreshes, hn]
    split
    · rw [UInt64.ofNat_add, UInt64.add_assoc]
      rfl
    · rw [UInt64.add_zero, Nat.add_zero]
  have he : Silent e i := silent_of_ne hb.task
  cases h with
  | idle hu => exact .idle (hu.silent he hb.outside)
  | early hu hp => exact .early (hu.silent he hb.outside) hp
  | queueing hp hk hw hn => exact .queueing hp hk (hw.silent he) (hrefresh _ _ hn)
  | checking hp hk hw hn ht =>
    exact .checking hp hk (hw.silent he) (hrefresh _ _ hn) (hb.holder ht).1
  | fetching hp hk hw ht =>
    obtain ⟨ht, hc⟩ := hb.holder ht
    refine .fetching hp hk ?_ ht
    simpa [hc] using hw.silent he
  | running hp hk hr hg ht =>
    obtain ⟨ht, hc⟩ := hb.holder ht
    exact .running hp hk (hr.other hb.task) (hg.silent he hc) ht
  | leaving hp hk hv ht => exact .leaving hp hk (hv.silent he) (hb.holder ht).1
  | late hp hv ho => exact .late hp (hv.silent he) (hb.outside ho)
  | gone hs hg ho =>
    exact .gone ((starts_silent he).symm ▸ hs) ((underWay_silent he).trans hg) (hb.outside ho)

theorem Untouched.reads (h : Untouched w log i) (count : UInt64) :
    Waiting (.acted i .refreshCount count :: log) i 0 := by
  refine ⟨?_, ?_, ?_⟩
  · simp [heard, Event.reads, h.unread]
  · simpa [starts, Event.starts] using h.unstarted
  · simpa [underWay, Event.starts, Event.ends] using h.resting

theorem Waiting.reads {n : Nat} (h : Waiting log i n) (count : UInt64) :
    Waiting (.acted i .refreshCount count :: log) i n := by
  refine ⟨heard_cons h.heard _, ?_, ?_⟩
  · simpa [starts, Event.starts] using h.unstarted
  · simpa [underWay, Event.starts, Event.ends] using h.resting

theorem Waiting.starts (h : Waiting log i 0) (r : Option RefreshHook) :
    Running (.acted i .refreshHook r :: log) i := by
  refine ⟨heard_cons h.heard _, ?_, ?_⟩
  · simpa [Cache.starts, Event.starts] using h.unstarted
  · simp [underWay, Event.starts]

theorem Running.counts (h : Running log i) (u : Unit) :
    Served (.acted i .countRefresh u :: log) i := by
  refine ⟨⟨0, heard_cons h.heard _⟩, ?_, ?_⟩
  · simpa [starts, Event.starts] using Nat.le_of_eq h.started
  · simp [Cache.underWay, Event.starts, Event.ends]

theorem silent_of_quiet {a : Action} (ha : a.isTurn = false) (j : Nat) (r : a.Reply) :
    Silent (.acted j a r : Event Call) i := by
  cases a <;> first | exact ⟨rfl, rfl, rfl⟩ | cases ha

theorem counts_of_quiet {a : Action} (ha : a.isTurn = false) (j : Nat) (r : a.Reply) :
    (Event.acted j a r : Event Call).counts = false := by
  cases a <;> first | rfl | cases ha

theorem turn_of_quiet {a : Action} {r : a.Reply} {j : Nat} (ha : a.isTurn = false)
    (hw : w.Answers j a r w') : w'.turn = w.turn := by
  rw [hw.sameCache.turn, World.turn_step]
  cases a <;> first | rfl | cases ha

/-- What comes of an action of the task, and what has gone before. -/
structure Advance (run : RefreshHook → Program Unit) (hook : RefreshHook) (w w' : World)
    (log : List (Event Call)) (i : Nat) (c : Call) (a : Action) (r : a.Reply)
    (p : Program Outcome) : Prop where
  stage : Stage run hook w' (.acted i a r :: log) i (some ⟨c, p⟩)
  starts : a = .refreshHook → Waiting log i 0 ∧ w.turn.holder = some i
  counts : a = .countRefresh → underWay i log = true ∧ Reached i (run hook) log (.done ())
  leaves : a = .endTurn → Served log i ∧ w.turn.holder = some i

theorem advance_of_quiet {c : Call} {a : Action} {r : a.Reply} {p : Program Outcome}
    (ha : a.isTurn = false)
    (h : Stage run hook w' (.acted i a r :: log) i (some ⟨c, p⟩)) :
    Advance run hook w w' log i c a r p := by
  refine ⟨h, ?_, ?_, ?_⟩ <;> rintro rfl <;> cases ha

theorem eq_zero_of_seen {seen : UInt64} {n : Nat} (hlt : n < 2 ^ 64)
    (h : seen + UInt64.ofNat n = seen) : n = 0 := by
  have hz := congrArg UInt64.toNat (UInt64.add_eq_left.1 h)
  rw [UInt64.toNat_ofNat_of_lt' hlt] at hz
  exact hz

theorem Stage.acts {c : Call} {a : Action} {r : a.Reply} {next : a.Reply → Program Outcome}
    (h : Stage run hook w log i (some ⟨c, .call a next⟩)) (hflat : Flat (run hook) log)
    (hhook : w.hook = some hook) (hwf : w.turn.WellFormed) (hlt : completions log < 2 ^ 64)
    (hw : w.Answers i a r w') : Advance run hook w w' log i c a r (next r) := by
  -- One case for each stage; the program at that stage says which action it is.
  have hturn := hw.sameCache.turn
  have hcount := hw.sameCache.refreshes
  rw [World.turn_step] at hturn
  rw [World.refreshes_step] at hcount
  cases h with
  | early hu hp =>
    cases hp with
    | calls ha hn =>
      refine advance_of_quiet ha (.early (hu.silent (silent_of_quiet ha i r) ?_) (hn r))
      rw [turn_of_quiet ha hw]
      exact id
    | reads hp hk =>
      cases hp
      refine ⟨.queueing rfl hk (hu.reads r) ?_, nofun, nofun, nofun⟩
      rw [hcount, hw.of_refreshCount]
      exact (UInt64.add_zero _).symm
  | queueing hp hk hw' hn =>
    cases hp
    refine ⟨.checking rfl hk (hw'.silent ⟨rfl, rfl, rfl⟩) (hcount.trans hn) ?_, nofun, nofun, nofun⟩
    rw [hturn]
    exact Turn.holder_of_take hw.of_takeTurn
  | @checking _ _ seen k n hp hk hw' hn ht =>
    cases hp
    refine ⟨?_, nofun, nofun, nofun⟩
    have ht' : w'.turn.holder = some i := by rw [hturn, ht]
    have hr : r = seen + UInt64.ofNat n := hw.of_refreshCount.trans hn
    -- The count is the one seen before just when nothing was counted meanwhile: there are fewer
    -- refreshes than the counter can hold, so it has not come round to the same number.
    by_cases hsame : r = seen
    · have hzero : n = 0 :=
        eq_zero_of_seen (Nat.lt_of_le_of_lt (heard_le hw'.heard) hlt) (hr ▸ hsame)
      subst hzero
      exact .fetching (if_pos hsame) hk (hw'.reads r) ht'
    · have hpos : n ≠ 0 := by
        rintro rfl
        exact hsame (hr.trans (UInt64.add_zero seen))
      obtain ⟨m, rfl⟩ := Nat.exists_eq_succ_of_ne_zero hpos
      have hagain := hw'.reads r
      refine .leaving (if_neg hsame) hk ⟨⟨m, hagain.heard⟩, ?_, hagain.resting⟩ ht'
      rw [hagain.unstarted]
      exact Nat.zero_le 1
  | fetching hp hk hw' ht =>
    cases hp
    obtain rfl := hw.of_refreshHook.trans hhook
    refine ⟨.running rfl hk (.start _) (hw'.starts _) ?_, fun _ => ⟨hw', ht⟩, nofun, nofun⟩
    rw [hturn, ht]
  | @running _ _ q k hp hk hr hg ht =>
    -- What the call does next is up to what is left of the hook.
    cases q with
    | done u =>
      change Program.call a next = toCount k at hp
      cases hp
      refine ⟨.leaving rfl hk (hg.counts r) ?_, nofun, fun _ => ⟨hg.underWay, hr⟩, nofun⟩
      rw [hturn, ht]
    | crash => cases hp
    | call b rest =>
      cases hp
      have ha : a.isTurn = false := hflat i [] log rfl a rest hr
      have hg' : Running (.acted i a r :: log) i :=
        hg.silent (silent_of_quiet ha i r) (counts_of_quiet ha i r)
      refine advance_of_quiet ha (.running rfl hk (hr.own r) hg' ?_)
      rw [turn_of_quiet ha hw, ht]
  | leaving hp hk hv ht =>
    cases hp
    refine ⟨.late (hk r) (hv.silent ⟨rfl, rfl, rfl⟩) ?_, nofun, nofun, fun _ => ⟨hv, ht⟩⟩
    rw [hturn]
    exact .pass (hwf.apart i ht)
  | late hp hv ho =>
    refine advance_of_quiet hp.1 (.late (hp.2 r) (hv.silent (silent_of_quiet hp.1 i r)) ?_)
    rw [turn_of_quiet hp.1 hw]
    exact ho

theorem Stage.waits {c : Call} {next : Unit → Program Outcome}
    (h : Stage run hook w log i (some ⟨c, .call .takeTurn next⟩)) (hflat : Flat (run hook) log) :
    Stage run hook { w with turn := (w.turn.take i).2 } (.waited i :: log) i
      (some ⟨c, .call .takeTurn next⟩) := by
  cases h with
  | queueing hp hk hw hn => exact .queueing hp hk (hw.silent ⟨rfl, rfl, rfl⟩) hn
  | early _ hp =>
    cases hp with
    | reads hp _ => cases hp
    | calls ha _ => cases ha
  | checking hp _ _ _ _ => cases hp
  | fetching hp _ _ _ => cases hp
  | @running _ _ q k hp _ hr _ _ =>
    cases q with
    | done u =>
      change Program.call .takeTurn next = toCount k at hp
      cases hp
    | crash => cases hp
    | call b rest =>
      cases hp
      cases hflat i [] log rfl _ rest hr
  | leaving hp _ _ _ => cases hp
  | late hp _ _ => cases hp.1

/-- Whoever has the turn has not returned. -/
theorem Stage.of_holder (h : Stage run hook w log i t) (ht : w.turn.holder = some i) :
    ∃ c, t = some ⟨c, .crash⟩ ∨ ∃ a next, t = some ⟨c, .call a next⟩ := by
  cases h with
  | idle hu => exact absurd ht hu.outside.holder
  | early hu _ => exact absurd ht hu.outside.holder
  | queueing hp _ _ _ => exact ⟨_, .inr ⟨_, _, by rw [hp, toQueue]⟩⟩
  | checking hp _ _ _ _ => exact ⟨_, .inr ⟨_, _, by rw [hp, toCheck]⟩⟩
  | fetching hp _ _ _ => exact ⟨_, .inr ⟨_, _, by rw [hp, toFetch]⟩⟩
  | @running c _ q k hp _ _ _ _ =>
    cases q with
    | done u => exact ⟨c, .inr ⟨_, _, by rw [hp]; rfl⟩⟩
    | crash => exact ⟨c, .inl (by rw [hp]; rfl)⟩
    | call b rest => exact ⟨c, .inr ⟨_, _, by rw [hp]; rfl⟩⟩
  | leaving hp _ _ _ => exact ⟨_, .inr ⟨_, _, by rw [hp, toLeave]⟩⟩
  | late _ _ ho => exact absurd ht ho.holder
  | gone _ _ ho => exact absurd ht ho.holder

theorem Stage.heard_of_done {c : Call} {v : Outcome}
    (h : Stage run hook w log i (some ⟨c, .done v⟩)) :
    heard i log = none ∧ c.spares v ∨ ∃ n, heard i log = some (n + 1) := by
  cases h with
  | late _ hv _ => exact .inr hv.heard
  | early hu hp =>
    cases hp with
    | ends hs => exact .inl ⟨hu.unread, hs⟩
    | reads hp _ => cases hp
  | queueing hp _ _ _ => cases hp
  | checking hp _ _ _ _ => cases hp
  | fetching hp _ _ _ => cases hp
  | @running _ _ q k hp _ _ _ _ =>
    cases q with
    | done u =>
      change Program.done v = toCount k at hp
      cases hp
    | crash => cases hp
    | call b rest => cases hp
  | leaving hp _ _ _ => cases hp

end

end Cache
end ClusterFleet
