import ClusterFleet.Proofs.Health.Record

namespace ClusterFleet.Health

inductive Writer where
  | pass (e : Encounter)
  /-- Someone else, who reads the conditions and writes them back changed, all in one step. -/
  | client (change : List Condition → List Condition)

/-- What is stored after a writer that nobody comes in the way of. -/
def Writer.after (interval : Span) (name : String) (d : Descriptor) : Writer → Descriptor
  | .pass e => afterPass interval name d e
  | .client change => d.withStatus ⟨change d.conditions⟩

def Writer.succeeds : Writer → Prop
  | .pass e => e.finding?.isSome
  | .client _ => True

inductive Side where
  | left
  | right
  deriving DecidableEq

def Side.other : Side → Side
  | .left => .right
  | .right => .left

theorem Side.eq_other_of_ne {i j : Side} (h : j ≠ i) : j = i.other := by
  cases i <;> cases j <;> first | rfl | exact absurd rfl h

inductive Rest where
  | pass (e : Encounter) (p : Program (Except PassError PassOutcome))
  | client (change : List Condition → List Condition)
  | nothing

def Writer.rest (interval : Span) (name : String) : Writer → Rest
  | .pass e => .pass e (Health.pass interval name)
  | .client change => .client change

inductive Rest.Over : Rest → Prop
  | pass (e : Encounter) (r : Except PassError PassOutcome) : Rest.Over (.pass e (.done r))
  | nothing : Rest.Over .nothing

structure Rivalry where
  stored : Descriptor
  rest : Side → Rest

inductive Deed where
  | reads
  | writes
  | changes
  | neither
  deriving DecidableEq

namespace Deed

def ofAction : Action → Deed
  | .findCluster _ => .reads
  | .writeStatus _ _ => .writes
  | _ => .neither

def isRead (x : Deed) : Bool := x = .reads || x = .changes

def isWrite (x : Deed) : Bool := x = .writes || x = .changes

end Deed

structure Move where
  side : Side
  deed : Deed

def Move.isReadBy (i : Side) (m : Move) : Bool := m.side = i && m.deed.isRead

def Move.isWriteBy (i : Side) (m : Move) : Bool := m.side = i && m.deed.isWrite

namespace Rivalry

def begin (interval : Span) (name : String) (d : Descriptor) (writers : Side → Writer) :
    Rivalry :=
  ⟨d, fun i => (writers i).rest interval name⟩

def put (s : Rivalry) (i : Side) (r : Rest) (d : Descriptor) : Rivalry :=
  ⟨d, fun j => if j = i then r else s.rest j⟩

inductive Step (name : String) : Rivalry → Move → Rivalry → Prop
  | acts {s : Rivalry} {i : Side} {e : Encounter} {a : Action}
    {next : a.Reply → Program (Except PassError PassOutcome)}
    (h : s.rest i = .pass e (.call a next)) :
    Step name s ⟨i, .ofAction a⟩
      (s.put i (.pass e (next (e.handler name s.stored a).1)) (e.handler name s.stored a).2)
  | changes {s : Rivalry} {i : Side} {change : List Condition → List Condition}
    (h : s.rest i = .client change) :
    Step name s ⟨i, .changes⟩
      (s.put i .nothing (s.stored.withStatus ⟨change s.stored.conditions⟩))

/-- From one state to another by these moves, the latest of them first. -/
inductive Run (name : String) (start : Rivalry) : List Move → Rivalry → Prop
  | here : Run name start [] start
  | step {s s' : Rivalry} {m : Move} {log : List Move} (h : Run name start log s)
    (hs : Step name s m s') : Run name start (m :: log) s'

end Rivalry

def lastWriter? (log : List Move) : Option Side := (log.find? (·.deed.isWrite)).map (·.side)

/-- Whether one of the two read what the other one had written. -/
def sees (i : Side) : List Move → Bool
  | [] => false
  | m :: log => if m.isReadBy i then log.any (Move.isWriteBy i.other) else sees i log

def Writer.result : Writer → List Condition → List Condition
  | .pass e, cs => match e.finding? with
    | none => cs
    | some f => f.recorded e.reading cs
  | .client change, cs => change cs

theorem conditions_after (interval : Span) (name : String) (d : Descriptor) (x : Writer) :
    (x.after interval name d).conditions = x.result d.conditions := by
  cases x with
  | pass e => exact conditions_afterPass interval name d e
  | client change => rfl

/-- The program writes these conditions and is over, without another look at what is stored. -/
inductive Writes (name : String) (e : Encounter) (cs : List Condition) :
    Program (Except PassError PassOutcome) → Prop
  | writes {next : Except StoreError Unit → Program (Except PassError PassOutcome)}
    {r : Except PassError PassOutcome} (hr : next (.ok ()) = .done r) :
    Writes name e cs (.call (.writeStatus name ⟨cs⟩) next)
  | passes {a : Action} {next : a.Reply → Program (Except PassError PassOutcome)}
    (ha : Deed.ofAction a = .neither) (hn : ∀ d, Writes name e cs (next (e.handler name d a).1)) :
    Writes name e cs (.call a next)

theorem handler_of_neither {a : Action} (ha : Deed.ofAction a = .neither) (e : Encounter)
    (name : String) (d : Descriptor) : (e.handler name d a).2 = d := by
  cases a <;> first | rfl | cases ha

theorem writes_persist (name : String) (e : Encounter) (cs : List Condition)
    (r : Except PassError PassOutcome) : Writes name e cs (persist name cs r) := .writes rfl

theorem unread_of_finding {e : Encounter} (he : e.finding?.isSome) : e.unread = none := by
  cases hu : e.unread with
  | none => rfl
  | some x => simp [Encounter.finding?, hu] at he

theorem unwritten_of_finding {e : Encounter} (he : e.finding?.isSome) : e.unwritten = none := by
  cases hu : e.unwritten with
  | none => rfl
  | some x => simp [Encounter.finding?, hu] at he

theorem writes_pass {e : Encounter} (he : (Writer.pass e).succeeds) (interval : Span)
    (name : String) (d : Descriptor) :
    ∃ next, pass interval name = .call (.findCluster name) next ∧
      (e.handler name d (.findCluster name)).1 = .ok (some d) ∧
      Writes name e ((Writer.pass e).result d.conditions) (next (.ok (some d))) := by
  obtain ⟨f, hf⟩ := Option.isSome_iff_exists.1 he
  refine ⟨_, rfl, ?_, ?_⟩
  · simp [Encounter.handler, unread_of_finding he]
  · refine .passes rfl fun _ => ?_
    cases hc : e.connection with
    | none =>
      have hm : e.finding? = some .miss := by
        unfold Encounter.finding? at hf ⊢
        split at hf
        · cases hf
        · next h => rw [if_neg h, hc]
      simp only [Writer.result, hm, Encounter.handler, hc]
      exact .passes rfl fun _ => writes_persist _ _ _ _
    | some c =>
      have hm := finding?_of_connection hc he
      simp only [Writer.result, hm, Encounter.handler, hc]
      refine .passes rfl fun _ => .passes rfl fun _ => ?_
      simp only [Program.bind, Encounter.handler, merge_observe]
      exact writes_persist _ _ _ _

section
variable {i j : Side} {m : Move} {log : List Move}

theorem sees_eq_false (h : ∀ m ∈ log, m.isWriteBy i.other = false) : sees i log = false := by
  induction log with
  | nil => rfl
  | cons m log ih =>
    obtain ⟨_, hlog⟩ := List.forall_mem_cons.1 h
    unfold sees
    split
    · simpa using hlog
    · exact ih hlog

theorem sees_cons_of_not_read (h : m.isReadBy i = false) : sees i (m :: log) = sees i log := by
  simp [sees, h]

theorem lastWriter?_cons_write (h : m.deed.isWrite) : lastWriter? (m :: log) = some m.side := by
  simp [lastWriter?, h]

theorem lastWriter?_cons_of_not_write (h : m.deed.isWrite = false) :
    lastWriter? (m :: log) = lastWriter? log := by
  simp [lastWriter?, h]

theorem any_isWriteBy_of_lastWriter? (h : lastWriter? log = some i) :
    log.any (Move.isWriteBy i) := by
  obtain ⟨m, hm, rfl⟩ := Option.map_eq_some_iff.1 h
  have hw := List.find?_some (p := fun m : Move => m.deed.isWrite) hm
  exact List.any_eq_true.2 ⟨m, List.mem_of_find?_eq_some hm, by simp [Move.isWriteBy, hw]⟩

theorem not_isWrite_of_lastWriter? (h : lastWriter? log = none) :
    log.any (Move.isWriteBy i) = false := by
  have hn := List.find?_eq_none.1 (Option.map_eq_none_iff.1 h)
  refine List.any_eq_false.2 fun m hm => ?_
  simp [Move.isWriteBy, hn m hm]

end

def seen (writers : Side → Writer) (start : List Condition) (log : List Move) (i : Side) :
    List Condition :=
  if sees i log then (writers i.other).result start else start

inductive Stands (interval : Span) (name : String) (start : List Condition)
    (writers : Side → Writer) (log : List Move) (i : Side) : Rest → Prop
  | fresh (hlog : ∀ m ∈ log, m.side ≠ i) :
    Stands interval name start writers log i ((writers i).rest interval name)
  | informed {e : Encounter} {p : Program (Except PassError PassOutcome)}
    (hi : writers i = .pass e)
    (hp : Writes name e ((writers i).result (seen writers start log i)) p) :
    Stands interval name start writers log i (.pass e p)
  | finished {r : Rest} (hr : r.Over) (hlog : log.any (Move.isWriteBy i)) :
    Stands interval name start writers log i r

structure Stored (interval : Span) (name : String) (start : List Condition)
    (writers : Side → Writer) (log : List Move) (s : Rivalry) : Prop where
  rests : ∀ i, Stands interval name start writers log i (s.rest i)
  conditions : s.stored.conditions = match lastWriter? log with
    | none => start
    | some i => (writers i).result (seen writers start log i)

section
variable {interval : Span} {name : String} {start : List Condition} {writers : Side → Writer}
  {log : List Move} {s s' : Rivalry} {m : Move} {i : Side}

theorem seen_cons_of_not_read (h : m.isReadBy i = false) :
    seen writers start (m :: log) i = seen writers start log i := by
  rw [seen, seen, sees_cons_of_not_read h]

theorem Stands.other {r : Rest} (h : Stands interval name start writers log i r)
    (hm : m.side ≠ i) : Stands interval name start writers (m :: log) i r := by
  cases h with
  | fresh hlog => exact .fresh (List.forall_mem_cons.2 ⟨hm, hlog⟩)
  | informed hi hp =>
    rw [← seen_cons_of_not_read (m := m) (by simp [Move.isReadBy, hm])] at hp
    exact .informed hi hp
  | finished hr hlog => exact .finished hr (by simp [hlog])

/-- Who moves first finds what the other one has left by then. -/
theorem Stored.conditions_of_fresh (h : Stored interval name start writers log s)
    (hlog : ∀ m ∈ log, m.side ≠ i) (hm : m.isReadBy i) :
    s.stored.conditions = seen writers start (m :: log) i := by
  have hs : sees i (m :: log) = log.any (Move.isWriteBy i.other) := by simp [sees, hm]
  rw [h.conditions, seen, hs]
  cases hl : lastWriter? log with
  | none => simp [not_isWrite_of_lastWriter? hl]
  | some k =>
    have hk := any_isWriteBy_of_lastWriter? hl
    -- Who has not moved has not written, nor has the other one seen anything of it.
    have hne : k ≠ i := by
      rintro rfl
      obtain ⟨m, hm, hw⟩ := List.any_eq_true.1 hk
      have hside : m.side = k := by
        simp [Move.isWriteBy] at hw
        exact hw.1
      exact hlog m hm hside
    obtain rfl := Side.eq_other_of_ne hne
    have hnot : sees i.other log = false := by
      refine sees_eq_false fun m hm => ?_
      have hi : i.other.other = i := by cases i <;> rfl
      simp [Move.isWriteBy, hi, hlog m hm]
    simp [hk, seen, hnot]

theorem Stored.put (h : Stored interval name start writers log s) {r : Rest} {d : Descriptor}
    (hm : m.side = i) (hr : Stands interval name start writers (m :: log) i r)
    (hd : d.conditions = match lastWriter? (m :: log) with
      | none => start
      | some j => (writers j).result (seen writers start (m :: log) j)) :
    Stored interval name start writers (m :: log) (s.put i r d) := by
  refine ⟨fun j => ?_, hd⟩
  by_cases hj : j = i
  · subst hj
    simpa [Rivalry.put] using hr
  · have hrest : (s.put i r d).rest j = s.rest j := if_neg hj
    rw [hrest]
    exact (h.rests j).other (hm ▸ Ne.symm hj)

theorem Stored.writes (h : Stored interval name start writers log s) {r : Rest} {d : Descriptor}
    (hm : m.isWriteBy i) (hr : r.Over)
    (hd : d.conditions = (writers i).result (seen writers start (m :: log) i)) :
    Stored interval name start writers (m :: log) (s.put i r d) := by
  obtain ⟨hside, hw⟩ : m.side = i ∧ m.deed.isWrite = true := by simpa [Move.isWriteBy] using hm
  refine h.put hside (.finished hr (by simp [hm])) ?_
  rw [lastWriter?_cons_write hw, hside]
  exact hd

theorem Stored.leaves (h : Stored interval name start writers log s) {r : Rest} {d : Descriptor}
    (hm : m.side = i) (hw : m.deed.isWrite = false)
    (hlast : ∀ k, lastWriter? log = some k → m.isReadBy k = false)
    (hr : Stands interval name start writers (m :: log) i r)
    (hd : d.conditions = s.stored.conditions) :
    Stored interval name start writers (m :: log) (s.put i r d) := by
  refine h.put hm hr ?_
  rw [hd, h.conditions, lastWriter?_cons_of_not_write hw]
  cases hl : lastWriter? log with
  | none => rfl
  | some k => simp only [seen_cons_of_not_read (hlast k hl)]

theorem Stands.of_pass {e : Encounter} {a : Action}
    {next : a.Reply → Program (Except PassError PassOutcome)}
    (h : Stands interval name start writers log i (.pass e (.call a next))) :
    writers i = .pass e ∧
      ((∀ m ∈ log, m.side ≠ i) ∧ pass interval name = .call a next ∨
        Writes name e ((writers i).result (seen writers start log i)) (.call a next)) := by
  generalize hr : Rest.pass e (.call a next) = r at h
  cases h with
  | fresh hlog =>
    cases hi : writers i with
    | pass e' =>
      rw [hi] at hr
      obtain ⟨rfl, hp⟩ := Rest.pass.inj hr
      exact ⟨rfl, .inl ⟨hlog, hp.symm⟩⟩
    | client change =>
      rw [hi] at hr
      cases hr
  | informed hi hp =>
    cases hr
    exact ⟨hi, .inr hp⟩
  | finished ho _ =>
    subst hr
    cases ho

theorem Stands.of_client {change : List Condition → List Condition}
    (h : Stands interval name start writers log i (.client change)) :
    writers i = .client change ∧ ∀ m ∈ log, m.side ≠ i := by
  generalize hr : Rest.client change = r at h
  cases h with
  | fresh hlog =>
    cases hi : writers i with
    | pass e =>
      rw [hi] at hr
      cases hr
    | client change' =>
      rw [hi] at hr
      cases hr
      exact ⟨rfl, hlog⟩
  | informed => cases hr
  | finished ho _ =>
    subst hr
    cases ho

theorem Stored.reads (hw : ∀ i, (writers i).succeeds)
    (h : Stored interval name start writers log s) {e : Encounter} {a : Action}
    {next : a.Reply → Program (Except PassError PassOutcome)} (hi : writers i = .pass e)
    (hlog : ∀ m ∈ log, m.side ≠ i) (hp : pass interval name = .call a next) :
    Stored interval name start writers (⟨i, .ofAction a⟩ :: log)
      (s.put i (.pass e (next (e.handler name s.stored a).1)) (e.handler name s.stored a).2) := by
  obtain ⟨next', hp', hreply, hwrites⟩ := writes_pass (hi ▸ hw i) interval name s.stored
  rw [hp] at hp'
  cases hp'
  rw [h.conditions_of_fresh hlog (m := ⟨i, .reads⟩) (by simp [Move.isReadBy, Deed.isRead]),
    ← hi] at hwrites
  refine h.leaves rfl rfl (fun k hk => ?_) (.informed hi (by rwa [hreply])) rfl
  -- The last to have written is not the one who has not moved.
  obtain ⟨m, hm, hwk⟩ := List.any_eq_true.1 (any_isWriteBy_of_lastWriter? hk)
  simp only [Move.isWriteBy, Bool.and_eq_true, decide_eq_true_eq] at hwk
  have hne : i ≠ k := fun he => hlog m hm (he ▸ hwk.1)
  simp [Move.isReadBy, hne]

theorem Stored.proceeds (h : Stored interval name start writers log s) {e : Encounter}
    {a : Action} {next : a.Reply → Program (Except PassError PassOutcome)}
    (hi : writers i = .pass e) (hu : e.unwritten = none)
    (hp : Writes name e ((writers i).result (seen writers start log i)) (.call a next)) :
    Stored interval name start writers (⟨i, .ofAction a⟩ :: log)
      (s.put i (.pass e (next (e.handler name s.stored a).1)) (e.handler name s.stored a).2) := by
  cases hp with
  | @writes next r hdone =>
    have hreply : e.handler name s.stored (.writeStatus name
        ⟨(writers i).result (seen writers start log i)⟩) = (.ok (), s.stored.withStatus
          ⟨(writers i).result (seen writers start log i)⟩) := by
      simp [Encounter.handler, hu]
    rw [hreply, hdone]
    refine h.writes (by simp [Move.isWriteBy, Deed.ofAction, Deed.isWrite]) (.pass e r) ?_
    rw [seen_cons_of_not_read (by simp [Move.isReadBy, Deed.ofAction, Deed.isRead])]
    rfl
  | passes ha hn =>
    have hread : ∀ k, (⟨i, .neither⟩ : Move).isReadBy k = false := by
      simp [Move.isReadBy, Deed.isRead]
    rw [handler_of_neither ha, ha]
    refine h.leaves rfl rfl (fun k _ => hread k) (.informed hi ?_) rfl
    rw [seen_cons_of_not_read (hread i)]
    exact hn s.stored

theorem Stored.step (hw : ∀ i, (writers i).succeeds)
    (h : Stored interval name start writers log s) (hs : Rivalry.Step name s m s') :
    Stored interval name start writers (m :: log) s' := by
  cases hs with
  | @acts i e a next ht =>
    have hr := h.rests i
    rw [ht] at hr
    obtain ⟨hi, ⟨hlog, hp⟩ | hp⟩ := hr.of_pass
    · exact h.reads hw hi hlog hp
    · have hsucceeds : (Writer.pass e).succeeds := hi ▸ hw i
      exact h.proceeds hi (unwritten_of_finding hsucceeds) hp
  | @changes i change ht =>
    have hr := h.rests i
    rw [ht] at hr
    obtain ⟨hi, hlog⟩ := hr.of_client
    have hread : (⟨i, .changes⟩ : Move).isReadBy i := by simp [Move.isReadBy, Deed.isRead]
    refine h.writes (by simp [Move.isWriteBy, Deed.isWrite]) .nothing ?_
    rw [Descriptor.conditions_withStatus, h.conditions_of_fresh hlog hread, hi]
    rfl

theorem stored_of_run {d : Descriptor} (hw : ∀ i, (writers i).succeeds)
    (h : Rivalry.Run name (.begin interval name d writers) log s) :
    Stored interval name d.conditions writers log s := by
  induction h with
  | here => exact ⟨fun i => .fresh nofun, rfl⟩
  | step _ hs ih => exact ih.step hw hs

theorem Stands.of_over {r : Rest} (h : Stands interval name start writers log i r) (hr : r.Over) :
    log.any (Move.isWriteBy i) := by
  cases h with
  | fresh =>
    cases hi : writers i with
    | pass e =>
      rw [hi] at hr
      cases hr
    | client change =>
      rw [hi] at hr
      cases hr
  | informed hi hp =>
    cases hr
    cases hp
  | finished _ hlog => exact hlog

/--
Both have come to their end. What is stored is as the last writer would have left it alone, starting
from what the other one has left if that is what it read, and from the beginning otherwise.
-/
theorem conditions_of_rivalry {d : Descriptor} (hw : ∀ i, (writers i).succeeds)
    (h : Rivalry.Run name (.begin interval name d writers) log s)
    (hover : ∀ i, (s.rest i).Over) : ∃ i, lastWriter? log = some i ∧
      s.stored.conditions = ((writers i).after interval name
        (if sees i log then (writers i.other).after interval name d else d)).conditions := by
  have hs := stored_of_run hw h
  have hc := hs.conditions
  have hwrote := (hs.rests .left).of_over (hover .left)
  cases hl : lastWriter? log with
  | none =>
    rw [not_isWrite_of_lastWriter? hl] at hwrote
    cases hwrote
  | some i =>
    refine ⟨i, rfl, ?_⟩
    simp only [hl] at hc
    rw [hc, conditions_after]
    unfold seen
    split
    · rw [conditions_after]
    · rfl

end

def approved : Condition :=
  ⟨.other "Approved", .yes, none, none, some "2024-01-02T00:00:00+00:00", none⟩

def unreached : Encounter := ⟨none, some certifiedConnection, .failed, ⟨3, 0⟩, none⟩

def approval : Side → Writer
  | .left => .pass unreached
  | .right => .client (· ++ [approved])

theorem approval_succeeds (i : Side) : (approval i).succeeds := by
  cases i <;> trivial

theorem approval_run : ∃ log s,
    Rivalry.Run "east" (.begin (.ofSeconds 10) "east" certified approval) log s ∧
    (∀ i, (s.rest i).Over) ∧ lastWriter? log = some .left ∧ sees .left log = false ∧
    s.stored.conditions = Finding.offline.recorded ⟨3, 0⟩ certified.conditions := by
  have h₀ : Rivalry.Run "east" (.begin (.ofSeconds 10) "east" certified approval) _ _ :=
    .step .here (.acts (i := .left) rfl)
  have h₁ := h₀.step (.acts (i := .left) rfl)
  have h₂ := h₁.step (.changes (i := .right) rfl)
  have h₃ := h₂.step (.acts (i := .left) rfl)
  have h₄ := h₃.step (.acts (i := .left) rfl)
  have h₅ := h₄.step (.acts (i := .left) rfl)
  refine ⟨_, _, h₅, ?_, rfl, rfl, rfl⟩
  intro i
  cases i with
  | left => exact .pass _ _
  | right => exact .nothing

theorem rivalry_approval : ∃ log s,
    Rivalry.Run "east" (.begin (.ofSeconds 10) "east" certified approval) log s ∧
    (∀ i, (s.rest i).Over) ∧ s.stored.conditions =
      ((approval .left).after (.ofSeconds 10) "east" certified).conditions := by
  obtain ⟨log, s, h, hover, hlast, hsees, _⟩ := approval_run
  obtain ⟨i, hi, hc⟩ := conditions_of_rivalry approval_succeeds h hover
  obtain rfl : i = .left := Option.some.inj (hi.symm.trans hlast)
  rw [hsees] at hc
  exact ⟨log, s, h, hover, hc⟩

/-- The condition is lost, as in neither order of the two it would be. -/
theorem approval_lost : ∃ log s,
    Rivalry.Run "east" (.begin (.ofSeconds 10) "east" certified approval) log s ∧
    (∀ i, (approval i).succeeds) ∧ (∀ i, (s.rest i).Over) ∧ approved ∉ s.stored.conditions ∧
    ∀ i, s.stored.conditions ≠ ((approval i).after (.ofSeconds 10) "east"
      ((approval i.other).after (.ofSeconds 10) "east" certified)).conditions := by
  obtain ⟨log, s, h, hover, _, _, hc⟩ := approval_run
  have hlost : approved ∉ s.stored.conditions := by
    have hd : Condition.Distinct certified.conditions := by decide
    rw [hc, (distinct_recorded .offline ⟨3, 0⟩ hd).mem_iff_find?, find?_recorded, find?_kept]
    decide
  refine ⟨log, s, h, approval_succeeds, hover, hlost, ?_⟩
  intro i he
  refine hlost (he ▸ ?_)
  rw [conditions_after, conditions_after]
  cases i with
  | left =>
    have hfind : Condition.find? approved.aspect (Finding.offline.recorded ⟨3, 0⟩
        (certified.conditions ++ [approved])) = some approved := by
      rw [find?_recorded, find?_kept]
      rfl
    exact List.mem_of_find?_eq_some hfind
  | right => exact List.mem_append_right _ List.mem_cons_self

end ClusterFleet.Health
