import ClusterFleet.Health.Pass
import ClusterFleet.Proofs.Moment
import Mathlib.Data.List.Induction

namespace ClusterFleet.Health

/-- What a pass meets on its way, in the order in which it asks. -/
structure Encounter where
  /-- Why the descriptor cannot be read. -/
  unread : Option StoreError
  connection : Option Connection
  answer : Http.Answer
  reading : Instant
  /-- Why the status cannot be written. -/
  unwritten : Option StoreError

namespace Encounter

/-- Answers a pass over the cluster filed under `name`, of which the state is what is stored. -/
def handler (e : Encounter) (name : String) : Handler Descriptor := fun d a =>
  match a with
  | .findCluster n =>
    (match e.unread with
      | some x => .error x
      | none => .ok (if n = name then some d else none), d)
  | .lookUp _ => (e.connection, d)
  | .probe _ => (e.answer, d)
  | .now => (e.reading, d)
  | .writeStatus n s =>
    match e.unwritten with
    | some x => (.error x, d)
    | none => if n = name then (.ok (), d.withStatus s) else (.error (.notFound n), d)
  | a => (a.blank, d)

end Encounter

def afterPass (interval : Span) (name : String) (d : Descriptor) (e : Encounter) : Descriptor :=
  ((pass interval name).runBy (e.handler name) d).2

def afterPasses (interval : Span) (name : String) (d : Descriptor) (es : List Encounter) :
    Descriptor :=
  es.foldl (afterPass interval name) d

inductive Finding where
  | ready
  | notReady
  | offline
  /-- There is no connection. -/
  | miss
  deriving DecidableEq

/-- A pass that cannot read or write finds nothing. -/
def Encounter.finding? (e : Encounter) : Option Finding :=
  if e.unread.isSome || e.unwritten.isSome then none
  else match e.connection with
    | none => some .miss
    | some _ => match e.answer.text? with
      | none => some .offline
      | some body => some (if saysOk body then .ready else .notReady)

def Finding.observed? : Finding → Aspect → Option Condition
  | .ready, .ready => some Health.ready
  | .notReady, .ready => some Health.notReady
  | .notReady, .offline => some Health.reachable
  | .offline, .offline => some Health.offline
  | .miss, .offline => some Health.offline
  | _, _ => none

structure Entry where
  finding : Finding
  reading : Instant

def Encounter.entry? (e : Encounter) : Option Entry :=
  e.finding?.map fun f => ⟨f, e.reading⟩

/-- What was found by a run of passes, the latest first. -/
def entries (es : List Encounter) : List Entry := (es.filterMap Encounter.entry?).reverse

structure Touch where
  observed : Condition
  reading : Instant

def Entry.touch? (a : Aspect) (x : Entry) : Option Touch :=
  (x.finding.observed? a).map fun c => ⟨c, x.reading⟩

/-- The observations of an aspect, the latest first. A miss wipes out all but `offline`. -/
def touches (a : Aspect) (xs : List Entry) : List Touch :=
  if a = .offline then xs.filterMap (Entry.touch? a)
  else (xs.takeWhile (·.finding ≠ .miss)).filterMap (Entry.touch? a)

/-- What was on record for an aspect before its observations. -/
def origin (a : Aspect) (xs : List Entry) (start : List Condition) : Option Condition :=
  if a = .offline ∨ ∀ x ∈ xs, x.finding ≠ .miss then Condition.find? a start else none

/-- The observations from the one that brought in the present verdict, the latest first. -/
def streak (v : Verdict) (ts : List Touch) : List Touch :=
  ts.takeWhile (·.observed.verdict = v)

/--
Since when the verdict has been `v`: since a time that was on record before the observations, if
they have all had this verdict, and else since the first observation of the streak.
-/
def since (v : Verdict) (start : Option Condition) (ts : List Touch) : Option String :=
  (if ts.all (·.observed.verdict = v) then (start.filter (·.verdict = v)).bind (·.transitioned)
    else none) <|>
  (streak v ts).getLast?.map (Time.rfc3339 ·.reading)

def settled (start : Option Condition) : List Touch → Option Condition
  | [] => start
  | t :: ts => some { t.observed with
      updated := some (Time.rfc3339 t.reading)
      transitioned := since t.observed.verdict start (t :: ts) }

def Finding.conditions : Finding → List Condition
  | .ready => [Health.ready]
  | .notReady => [Health.notReady, Health.reachable]
  | .offline | .miss => [Health.offline]

def Finding.kept (f : Finding) (cs : List Condition) : List Condition :=
  if f = .miss then cs.filter (·.aspect = .offline) else cs

def Finding.recorded (f : Finding) (now : Instant) (cs : List Condition) : List Condition :=
  Condition.merge (f.kept cs) f.conditions now

def Finding.ofAnswer (a : Http.Answer) : Finding :=
  match a.text? with
  | none => .offline
  | some body => if saysOk body then .ready else .notReady

theorem merge_observe (a : Http.Answer) (now : Instant) (cs : List Condition) :
    Condition.merge cs (observe a) now = (Finding.ofAnswer a).recorded now cs := by
  unfold observe Finding.ofAnswer
  cases a.text? with
  | none => rfl
  | some body =>
    simp only [classify]
    split <;> rfl

theorem finding?_of_connection {e : Encounter} {c : Connection} (hc : e.connection = some c)
    (hs : e.finding?.isSome) : e.finding? = some (.ofAnswer e.answer) := by
  unfold Encounter.finding? at hs ⊢
  split at hs
  · cases hs
  · next h =>
    rw [if_neg h, hc, Finding.ofAnswer]
    cases e.answer.text? <;> rfl

theorem conditions_afterPass (interval : Span) (name : String) (d : Descriptor) (e : Encounter) :
    (afterPass interval name d e).conditions = match e.finding? with
      | none => d.conditions
      | some f => f.recorded e.reading d.conditions := by
  obtain ⟨unread, connection, answer, reading, unwritten⟩ := e
  cases unread with
  | some x => rfl
  | none =>
    cases unwritten with
    | some x =>
      cases connection with
      | none => simp [afterPass, pass, recordMiss, persist, Encounter.handler, Encounter.finding?]
      | some c =>
        simp [afterPass, pass, recordProbe, persist, Encounter.handler, Encounter.finding?]
    | none =>
      cases connection with
      | none =>
        simp [afterPass, pass, recordMiss, persist, Encounter.handler, Encounter.finding?]
        rfl
      | some c =>
        simp only [afterPass, pass, recordProbe, persist, Encounter.handler, Encounter.finding?,
          observe, ↓reduceIte, Program.act_bind, Program.runBy_call]
        cases answer.text? with
        | none => rfl
        | some body =>
          simp only [classify]
          cases saysOk body <;> rfl

theorem find?_kept (f : Finding) (a : Aspect) (cs : List Condition) :
    Condition.find? a (f.kept cs) =
      if a = .offline ∨ f ≠ .miss then Condition.find? a cs else none := by
  by_cases hf : f = .miss
  · rw [Finding.kept, if_pos hf, Condition.find?, List.find?_filter]
    by_cases ha : a = .offline
    · subst ha
      simp [Condition.find?]
    · simp only [ha, hf, ne_eq, not_true_eq_false, or_self, if_false, List.find?_eq_none]
      intro c _ hc
      simp only [decide_eq_true_eq] at hc
      exact ha (hc.2.symm.trans hc.1)
  · simp [Finding.kept, hf]

theorem find?_recorded (f : Finding) (now : Instant) (a : Aspect) (cs : List Condition) :
    Condition.find? a (f.recorded now cs) = match f.observed? a with
      | some c => some (Condition.renewed c (Time.rfc3339 now) (Condition.find? a (f.kept cs)))
      | none => Condition.find? a (f.kept cs) := by
  cases f <;> cases a <;>
    simp [Finding.recorded, Finding.conditions, Finding.observed?, Condition.merge,
      Condition.recordAll, Condition.find?_record, Health.ready, Health.notReady, Health.offline,
      Health.reachable, Condition.observed]

theorem distinct_recorded (f : Finding) (now : Instant) {cs : List Condition}
    (h : Condition.Distinct cs) : Condition.Distinct (f.recorded now cs) := by
  have hk : Condition.Distinct (f.kept cs) := by
    unfold Finding.kept
    split
    · exact h.filter _
    · exact h
  cases f with
  | ready => exact hk.record _ _
  | notReady => exact (hk.record _ _).record _ _
  | offline => exact hk.record _ _
  | miss => exact hk.record _ _

theorem since_isSome (start : Option Condition) (t : Touch) (ts : List Touch) :
    (since t.observed.verdict start (t :: ts)).isSome := by
  simp [since, streak, List.getLast?_cons]

theorem since_cons_same {t t' : Touch} (h : t'.observed.verdict = t.observed.verdict)
    (start : Option Condition) (ts : List Touch) :
    since t.observed.verdict start (t :: t' :: ts) =
      since t'.observed.verdict start (t' :: ts) := by
  simp [since, streak, h, List.getLast?_cons]

theorem settled_cons (start : Option Condition) (t : Touch) (ts : List Touch) :
    settled start (t :: ts) =
      some (Condition.renewed t.observed (Time.rfc3339 t.reading) (settled start ts)) := by
  cases ts with
  | nil =>
    cases start with
    | none => simp [settled, since, streak, Condition.renewed, Condition.first]
    | some c =>
      by_cases h : c.verdict = t.observed.verdict
      · simp [settled, since, streak, Condition.renewed, Condition.replacing, Option.filter_some, h]
      · simp [settled, since, streak, Condition.renewed, Condition.replacing, Option.filter_some, h]
  | cons t' ts =>
    by_cases h : t'.observed.verdict = t.observed.verdict
    · obtain ⟨text, ht⟩ := Option.isSome_iff_exists.1 (since_isSome start t' ts)
      simp only [settled, Condition.renewed, Condition.replacing, if_pos h, since_cons_same h, ht]
      rfl
    · -- The verdict has just changed, so the streak is this observation alone.
      simp [settled, since, streak, Condition.renewed, Condition.replacing, h]

theorem afterPasses_concat (interval : Span) (name : String) (d : Descriptor)
    (es : List Encounter) (e : Encounter) :
    afterPasses interval name d (es ++ [e]) =
      afterPass interval name (afterPasses interval name d es) e := by
  simp [afterPasses]

theorem entries_concat (es : List Encounter) (e : Encounter) :
    entries (es ++ [e]) = e.entry?.toList ++ entries es := by
  cases h : e.entry? <;> simp [entries, h]

theorem touches_cons (x : Entry) (xs : List Entry) {a : Aspect}
    (h : a = .offline ∨ x.finding ≠ .miss) :
    touches a (x :: xs) = (x.touch? a).toList ++ touches a xs := by
  have hcons (ys : List Entry) : (x :: ys).filterMap (Entry.touch? a) =
      (x.touch? a).toList ++ ys.filterMap (Entry.touch? a) := by
    cases ht : x.touch? a with
    | none => rw [List.filterMap_cons_none ht, Option.toList_none, List.nil_append]
    | some t => rw [List.filterMap_cons_some ht, Option.toList_some, List.singleton_append]
  by_cases ha : a = .offline
  · simp only [touches, if_pos ha, hcons]
  · -- The observations are taken up to a miss, which this entry is not.
    have hx : x.finding ≠ .miss := h.resolve_left ha
    have htake : (x :: xs).takeWhile (·.finding ≠ .miss) = x :: xs.takeWhile (·.finding ≠ .miss) :=
      List.takeWhile_cons_of_pos (decide_eq_true hx)
    simp only [touches, if_neg ha, htake, hcons]

theorem origin_cons (x : Entry) (xs : List Entry) {a : Aspect} (start : List Condition)
    (h : a = .offline ∨ x.finding ≠ .miss) :
    origin a (x :: xs) start = origin a xs start := by
  rcases h with h | h <;> simp [origin, h]

theorem observed?_miss {a : Aspect} (ha : a ≠ .offline) : Finding.miss.observed? a = none := by
  cases a with
  | offline => exact absurd rfl ha
  | _ => rfl

theorem settled_miss {x : Entry} (hx : x.finding = .miss) (xs : List Entry) {a : Aspect}
    (ha : a ≠ .offline) (start : List Condition) :
    settled (origin a (x :: xs) start) (touches a (x :: xs)) = none := by
  simp [touches, origin, settled, ha, hx]

theorem find?_recorded_settled (x : Entry) (xs : List Entry) (a : Aspect)
    (start cs : List Condition)
    (h : Condition.find? a cs = settled (origin a xs start) (touches a xs)) :
    Condition.find? a (x.finding.recorded x.reading cs) =
      settled (origin a (x :: xs) start) (touches a (x :: xs)) := by
  by_cases hk : a = .offline ∨ x.finding ≠ .miss
  · rw [find?_recorded, find?_kept, if_pos hk, h, touches_cons x xs hk, origin_cons x xs start hk]
    cases ho : x.finding.observed? a with
    | none => simp [Entry.touch?, ho]
    | some c =>
      have ht : x.touch? a = some ⟨c, x.reading⟩ := by simp [Entry.touch?, ho]
      rw [ht]
      exact (settled_cons _ ⟨c, x.reading⟩ _).symm
  · obtain ⟨ha, hx⟩ := not_or.1 hk
    have hx : x.finding = .miss := not_ne_iff.1 hx
    rw [find?_recorded, find?_kept, if_neg hk, hx, observed?_miss ha, settled_miss hx xs ha]

theorem find?_afterPasses (interval : Span) (name : String) (d : Descriptor)
    (es : List Encounter) (a : Aspect) :
    Condition.find? a (afterPasses interval name d es).conditions =
      settled (origin a (entries es) d.conditions) (touches a (entries es)) := by
  -- The last pass is taken off: the ones before it have left what it finds on record.
  induction es using List.reverseRecOn with
  | nil => simp [afterPasses, entries, origin, touches, settled]
  | append_singleton es e ih =>
    rw [afterPasses_concat, conditions_afterPass, entries_concat]
    cases hf : e.finding? with
    | none => simpa [Encounter.entry?, hf] using ih
    | some f =>
      have hx : e.entry? = some ⟨f, e.reading⟩ := by simp [Encounter.entry?, hf]
      rw [hx]
      exact find?_recorded_settled ⟨f, e.reading⟩ (entries es) a d.conditions _ ih

theorem distinct_afterPasses (interval : Span) (name : String) {d : Descriptor}
    (h : Condition.Distinct d.conditions) (es : List Encounter) :
    Condition.Distinct (afterPasses interval name d es).conditions := by
  induction es using List.reverseRecOn with
  | nil => exact h
  | append_singleton es e ih =>
    rw [afterPasses_concat, conditions_afterPass]
    cases e.finding? with
    | none => exact ih
    | some f => exact distinct_recorded f e.reading ih

theorem touches_other (s : String) (xs : List Entry) : touches (.other s) xs = [] := by
  have ho : ∀ x : Entry, x.touch? (.other s) = none := by
    intro x
    cases hx : x.finding <;> simp [Entry.touch?, Finding.observed?, hx]
  simp [touches, ho]

/-- What is on record after a run of passes, from what was and from what the passes found. -/
structure Settles (start : List Condition) (xs : List Entry) (final : List Condition) : Prop where
  distinct : Condition.Distinct final
  /-- The conditions of other writers stay as they were, unless a miss has wiped them out. -/
  others : ∀ c s, c.aspect = .other s →
    (c ∈ final ↔ c ∈ start ∧ ∀ x ∈ xs, x.finding ≠ .miss)
  own : ∀ c, c.aspect = .ready ∨ c.aspect = .offline →
    (c ∈ final ↔ settled (origin c.aspect xs start) (touches c.aspect xs) = some c)

theorem settles_afterPasses (interval : Span) (name : String) {d : Descriptor}
    (h : Condition.Distinct d.conditions) (es : List Encounter) :
    Settles d.conditions (entries es) (afterPasses interval name d es).conditions := by
  have hd := distinct_afterPasses interval name h es
  refine ⟨hd, ?_, ?_⟩
  · intro c s hc
    rw [hd.mem_iff_find?, find?_afterPasses, hc, touches_other, settled, h.mem_iff_find?, hc]
    by_cases hm : ∀ x ∈ entries es, x.finding ≠ .miss
    · have ho : origin (.other s) (entries es) d.conditions =
          Condition.find? (.other s) d.conditions := if_pos (.inr hm)
      rw [ho]
      exact (and_iff_left hm).symm
    · have ho : origin (.other s) (entries es) d.conditions = none :=
        if_neg (not_or.2 ⟨Aspect.noConfusion, hm⟩)
      rw [ho]
      exact iff_of_false nofun fun hc => hm hc.2
  · intro c _
    rw [hd.mem_iff_find?, find?_afterPasses]

/-- A cluster of which another writer keeps one condition. -/
def certified : Descriptor where
  metadata := ⟨some "east", none, none, none, []⟩
  spec := ⟨"https://east.example", none, "east-token", none⟩
  status := some ⟨[
    ⟨.other "Certified", .yes, none, none, some "2024-01-01T00:00:00+00:00", none⟩,
    ⟨.ready, .yes, none, none, some "2024-01-01T00:00:00+00:00", none⟩]⟩

def certifiedConnection : Connection where
  name := "east"
  operatorNamespace := "operator"
  owner := ""
  apiEndpoint := "https://east.example"
  secretName := "east-token"
  restConfig := ⟨"https://east.example", false, none, "token"⟩
  client := ⟨⟨"https://east.example", false, none, "token"⟩, .ofSeconds 3, .ofSeconds 3⟩
  status := .empty

/-- An answer without `ok`, a pass that cannot write, and a miss. -/
def decline : List Encounter := [
  ⟨none, some certifiedConnection, .response 200 [], ⟨0, 0⟩, none⟩,
  ⟨none, some certifiedConnection, .failed, ⟨1, 0⟩, some (.notFound "east")⟩,
  ⟨none, none, .failed, ⟨2, 0⟩, none⟩]

theorem settles_decline :
    (entries decline).map (·.finding) = [.miss, .notReady] ∧
      Settles certified.conditions (entries decline)
        (afterPasses (.ofSeconds 60) "east" certified decline).conditions := by
  refine ⟨?_, settles_afterPasses (.ofSeconds 60) "east" (by decide) decline⟩
  simp [entries, decline, Encounter.entry?, Encounter.finding?, Http.Answer.text?,
    Http.isErrorCode, Text.Utf8.decode?, Text.Utf8.decodeChars?, saysOk]

def Encounter.inWorld (name : String) (w : World) : Encounter where
  unread := w.faults.get.map Fault.error
  connection := w.connections.find? name
  answer := (w.connections.find? name).elim .failed fun c => w.remoteAnswer c.client
  reading := w.clock.read.1
  unwritten := w.faults.update.map Fault.error

theorem find_persist_run {name : String} {w : World} {m : MemoryStore} {d : Descriptor}
    (hm : w.store = .memory m) (hd : m.find name = some d) (hu : w.faults.update = none)
    (cs : List Condition) (r : Except PassError PassOutcome) :
    ∃ m', ((persist name cs r).run w).2.store = .memory m' ∧
      m'.find name = some (d.withStatus ⟨cs⟩) := by
  refine ⟨(m.writeStatus name ⟨cs⟩).2, ?_, ?_⟩
  · simp [Program.run, persist, World.perform, World.writeStatus, Store.writeStatus,
      MemoryStore.writeStatus, hm, hd, hu]
  · simp only [MemoryStore.writeStatus, hd]
    exact Table.find?_insert_self name _ _

theorem find_pass_run (interval : Span) {name : String} {w : World} {m : MemoryStore}
    {d : Descriptor} (hm : w.store = .memory m) (hd : m.find name = some d) :
    ∃ m', ((pass interval name).run w).2.store = .memory m' ∧
      m'.find name = some (afterPass interval name d (.inWorld name w)) := by
  -- A fault of the read ends the pass at once; one of the write leaves all as it was.
  cases hg : w.faults.get with
  | some f =>
    refine ⟨m, ?_, ?_⟩
    · simp [Program.run, pass, World.perform, World.guarded, hg, hm]
    · simp [afterPass, pass, Encounter.handler, Encounter.inWorld, hg, hd]
  | none =>
    cases hu : w.faults.update with
    | some f =>
      refine ⟨m, ?_⟩
      cases hc : w.connections.find? name with
      | none =>
        simp [Program.run, pass, recordMiss, persist, afterPass, World.perform, World.guarded,
          Store.find, Encounter.handler, Encounter.inWorld, hg, hu, hm, hd, hc]
      | some c =>
        simp [Program.run, pass, recordProbe, persist, afterPass, World.perform, World.guarded,
          Store.find, Encounter.handler, Encounter.inWorld, hg, hu, hm, hd, hc]
    | none =>
      cases hc : w.connections.find? name with
      | none =>
        have h := find_persist_run (w := { w with clock := w.clock.read.2 }) hm hd hu
          (Condition.merge (d.conditions.filter (·.aspect = .offline)) [offline] w.clock.read.1)
          (.error (.cacheMiss name))
        simpa [Program.run, pass, recordMiss, afterPass, persist, World.perform, World.guarded,
          Store.find, Encounter.handler, Encounter.inWorld, hg, hu, hm, hd, hc] using h
      | some c =>
        have h := find_persist_run
          (w := { w with
            clock := w.clock.read.2
            journal := { w.journal with probes := w.journal.probes ++ [c.client] } })
          hm hd hu (Condition.merge d.conditions (observe (w.remoteAnswer c.client))
            w.clock.read.1) (.ok (.requeueAfter interval))
        simpa [Program.run, pass, recordProbe, afterPass, persist, World.perform, World.guarded,
          World.remoteAnswer, Store.find, Encounter.handler, Encounter.inWorld, hg, hu, hm, hd, hc]
          using h

end ClusterFleet.Health
