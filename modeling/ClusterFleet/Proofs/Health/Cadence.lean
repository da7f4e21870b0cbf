import ClusterFleet.Proofs.Health.Record
import ClusterFleet.Proofs.Time.Order
import ClusterFleet.Proofs.Time.Rfc3339

namespace ClusterFleet.Health

/-- What is on record for a cluster, and a time that has been reached. -/
structure Standing where
  conditions : List Condition
  clock : Instant

inductive Mark where
  | read (t : Instant)
  /-- A status of the cluster was written into the store, whatever the reply. -/
  | stored (t : Instant)
  | asked (a : Action)

def concerns (name : String) : Action → Bool
  | .now => true
  | .findCluster n | .writeStatus n _ => n = name
  | _ => false

/-- How an action of a check is answered. Only a status write alters what is on record. -/
inductive Answers (name : String) (s : Standing) :
    (a : Action) → a.Reply → Mark → Standing → Prop
  | reads {t : Instant} (ht : Time.IsOrdinary t) (hle : s.clock.le t) :
    Answers name s .now t (.read t) { s with clock := t }
  | finds {d : Descriptor} (hd : d.conditions = s.conditions) :
    Answers name s (.findCluster name) (.ok (some d)) (.asked (.findCluster name)) s
  | misses {r : Except StoreError (Option Descriptor)} (hr : ∀ d, r ≠ .ok (some d)) :
    Answers name s (.findCluster name) r (.asked (.findCluster name)) s
  | stores (st : Status) (r : Except StoreError Unit) :
    Answers name s (.writeStatus name st) r (.stored s.clock)
      { s with conditions := st.conditions }
  | refuses (st : Status) (e : StoreError) :
    Answers name s (.writeStatus name st) (.error e) (.asked (.writeStatus name st)) s
  /-- The rest of the world may give any reply. -/
  | others {a : Action} (r : a.Reply) (ha : ¬concerns name a) : Answers name s a r (.asked a) s

/-- The course of a program, which may be given up wherever it has to wait for an answer. -/
inductive Course {α : Type} (name : String) :
    Program α → Standing → List Mark → Option α → Standing → Prop
  | ends (v : α) (s : Standing) : Course name (.done v) s [] (some v) s
  | crashes (s : Standing) : Course name .crash s [] none s
  | acts {a : Action} {next : a.Reply → Program α} {s s₁ s₂ : Standing} {r : a.Reply} {m : Mark}
    {ms : List Mark} {v : Option α} (h : Answers name s a r m s₁)
    (hrest : Course name (next r) s₁ ms v s₂) : Course name (.call a next) s (m :: ms) v s₂
  | stops {a : Action} {next : a.Reply → Program α} (s : Standing) (ha : a ≠ .now) :
    Course name (.call a next) s [] none s
  /-- The action takes place, but nobody waits for its reply any more. -/
  | drops {a : Action} {next : a.Reply → Program α} {s s₁ : Standing} {r : a.Reply} {m : Mark}
    (ha : a ≠ .now) (h : Answers name s a r m s₁) : Course name (.call a next) s [m] none s₁

theorem answers_handler {name : String} {e : Encounter} (he : Time.IsOrdinary e.reading)
    {clock : Instant} (hle : clock.le e.reading) (d : Descriptor) (a : Action) :
    ∃ m clock', clock'.le e.reading ∧ Answers name ⟨d.conditions, clock⟩ a (e.handler name d a).1 m
      ⟨(e.handler name d a).2.conditions, clock'⟩ := by
  obtain ⟨unread, connection, answer, reading, unwritten⟩ := e
  by_cases ha : concerns name a
  · cases a with
    | now => exact ⟨_, reading, Instant.le_refl _, .reads he hle⟩
    | findCluster n =>
      obtain rfl : n = name := by simpa [concerns] using ha
      cases unread with
      | some x => exact ⟨_, clock, hle, .misses nofun⟩
      | none =>
        simp only [Encounter.handler, if_true]
        exact ⟨_, clock, hle, .finds rfl⟩
    | writeStatus n st =>
      obtain rfl : n = name := by simpa [concerns] using ha
      cases unwritten with
      | some x => exact ⟨_, clock, hle, .refuses st x⟩
      | none =>
        simp only [Encounter.handler, if_true]
        exact ⟨_, clock, hle, .stores st (.ok ())⟩
    | _ => cases ha
  · -- Nothing else has an effect on what is stored.
    have hd : (Encounter.handler ⟨unread, connection, answer, reading, unwritten⟩ name d a).2 =
        d := by
      cases a with
      | writeStatus n st =>
        have hn : n ≠ name := by simpa [concerns] using ha
        cases unwritten <;> simp [Encounter.handler, hn]
      | _ => rfl
    rw [hd]
    exact ⟨_, clock, hle, .others _ ha⟩

/-- A run on a descriptor, whatever is met on the way, is a course. -/
theorem course_runBy {α : Type} {name : String} {e : Encounter} (he : Time.IsOrdinary e.reading)
    (p : Program α) (d : Descriptor) {clock : Instant} (hle : clock.le e.reading) :
    ∃ ms clock', Course name p ⟨d.conditions, clock⟩ ms (p.runBy (e.handler name) d).1
      ⟨(p.runBy (e.handler name) d).2.conditions, clock'⟩ := by
  induction p generalizing d clock with
  | done a => exact ⟨[], clock, .ends a _⟩
  | crash => exact ⟨[], clock, .crashes _⟩
  | call a next ih =>
    obtain ⟨m, clock₁, hle₁, ha⟩ := answers_handler he hle d a
    obtain ⟨ms, clock₂, hc⟩ := ih (e.handler name d a).1 (e.handler name d a).2 hle₁
    exact ⟨m :: ms, clock₂, .acts ha hc⟩

structure Check where
  marks : List Mark
  result : Option (Plan × Option PassError)

/-- One check after the other, the latest first. Each is given the descriptor as it is stored. -/
inductive Checks (interval : Span) (name : String) (start : Standing) :
    List Check → Standing → Prop
  | here : Checks interval name start [] start
  | goes {s s' : Standing} {cs : List Check} {d : Descriptor} {ms : List Mark}
    {v : Option (Plan × Option PassError)} (h : Checks interval name start cs s)
    (hname : d.name = name) (hd : d.conditions = s.conditions)
    (hc : Course name (reconcile interval d) s ms v s') :
    Checks interval name start (⟨ms, v⟩ :: cs) s'

def Mark.stored? : Mark → Option Instant
  | .stored t => some t
  | _ => none

/-- The readings of the clock with which a status was written, the earliest first. -/
def storedAt (ms : List Mark) : List Instant := ms.filterMap Mark.stored?

def written (cs : List Check) : List Instant := cs.flatMap fun c => (storedAt c.marks).reverse

theorem mem_record {now : String} {new c : Condition} {cs : List Condition}
    (h : c ∈ Condition.record now new cs) :
    c.updated = some now ∧ c.aspect = new.aspect ∨ c ∈ cs := by
  induction cs with
  | nil =>
    rw [Condition.record, List.mem_singleton] at h
    subst h
    exact .inl ⟨rfl, rfl⟩
  | cons old rest ih =>
    rw [Condition.record] at h
    split at h
    · rcases List.mem_cons.1 h with rfl | h
      · exact .inl ⟨rfl, rfl⟩
      · exact .inr (List.mem_cons_of_mem _ h)
    · rcases List.mem_cons.1 h with rfl | h
      · exact .inr List.mem_cons_self
      · exact (ih h).imp_right (List.mem_cons_of_mem _)

theorem exists_updated_record (now : String) (new : Condition) (cs : List Condition) :
    ∃ c ∈ Condition.record now new cs, c.updated = some now := by
  have h := Condition.find?_record_self now new cs
  refine ⟨_, List.mem_of_find?_eq_some h, ?_⟩
  cases Condition.find? new.aspect cs <;> rfl

theorem mem_recordAll {now : String} {known observed : List Condition} {c : Condition}
    (h : c ∈ Condition.recordAll now known observed) :
    (c.updated = some now ∧ ∃ new ∈ observed, c.aspect = new.aspect) ∨ c ∈ known := by
  induction observed generalizing known with
  | nil => exact .inr h
  | cons new rest ih =>
    rcases ih h with ⟨hu, o, ho, ha⟩ | hc
    · exact .inl ⟨hu, o, List.mem_cons_of_mem _ ho, ha⟩
    · exact (mem_record hc).imp_left fun ⟨hu, ha⟩ => ⟨hu, new, List.mem_cons_self, ha⟩

theorem mem_recorded {f : Finding} {w : Instant} {cs : List Condition} {c : Condition}
    (h : c ∈ f.recorded w cs) :
    (c.updated = some (Time.rfc3339 w) ∧ ∃ new ∈ f.conditions, c.aspect = new.aspect) ∨
      c ∈ cs := by
  refine (mem_recordAll h).imp_right fun hk => ?_
  unfold Finding.kept at hk
  split at hk
  · exact (List.mem_filter.1 hk).1
  · exact hk

theorem exists_updated_recorded (f : Finding) (w : Instant) (cs : List Condition) :
    ∃ c ∈ f.recorded w cs, c.updated = some (Time.rfc3339 w) := by
  cases f <;> exact exists_updated_record _ _ _

/-- The latest stamp on record is the time of the finding, if none was later. -/
theorem latestUpdate?_recorded (f : Finding) {w : Instant} (hw : Time.IsOrdinary w)
    {cs : List Condition} (h : ∀ t ∈ cs.filterMap Condition.updatedAt?, t.le w) :
    Condition.latestUpdate? (f.recorded w cs) = some w ∧
      ∀ t ∈ (f.recorded w cs).filterMap Condition.updatedAt?, t.le w := by
  have hstamp : ∀ c : Condition, c.updated = some (Time.rfc3339 w) → c.updatedAt? = some w := by
    intro c hc
    rw [Condition.updatedAt?, hc, Option.bind_some]
    exact Time.ofRfc3339?_rfc3339 hw
  have hle : ∀ t ∈ (f.recorded w cs).filterMap Condition.updatedAt?, t.le w := by
    intro t ht
    obtain ⟨c, hc, ht⟩ := List.mem_filterMap.1 ht
    rcases mem_recorded hc with ⟨hu, _⟩ | hc
    · rw [hstamp c hu] at ht
      cases ht
      exact Instant.le_refl _
    · exact h t (List.mem_filterMap.2 ⟨c, hc, ht⟩)
  obtain ⟨c, hc, hu⟩ := exists_updated_recorded f w cs
  exact ⟨Instant.latest_eq_some (List.mem_filterMap.2 ⟨c, hc, hstamp c hu⟩) hle, hle⟩

theorem remaining?_eq {cs : List Condition} {w r : Instant} {interval : Span}
    (hl : Condition.latestUpdate? cs = some w) (hw : w.isLeap = false) (hr : r.isLeap = false)
    (hle : w.le r) : remaining? cs r interval =
      if r.count < w.count + interval.nanos then
        some ⟨interval.nanos - (r.count - w.count).toNat⟩
      else none := by
  have hc := Instant.count_le_of_le hw hle
  simp only [remaining?, hl, Instant.elapsed?, Instant.since_eq_count hr hw, Option.bind_eq_bind,
    Option.bind_some]
  rw [if_pos (by omega), Option.bind_some, Span.sub?]
  simp only
  split_ifs with h₁ h₂ h₂
  · rw [Option.filter_some, if_pos]
    simp only [Span.isZero]
    simp
    omega
  · rw [Option.filter_some, if_neg]
    simp [Span.isZero]
    omega
  · omega
  · rfl

section
variable {name : String} {s s₁ s' : Standing} {ms : List Mark} {interval : Span}

theorem Course.of_call {α : Type} {a : Action} {next : a.Reply → Program α} {v : Option α}
    (h : Course name (.call a next) s ms v s') :
    (∃ r m s₁ rest, Answers name s a r m s₁ ∧ Course name (next r) s₁ rest v s' ∧
      ms = m :: rest) ∨
    (a ≠ .now ∧ v = none ∧ (ms = [] ∧ s' = s ∨ ∃ r m, Answers name s a r m s' ∧ ms = [m])) := by
  cases h with
  | acts h hrest => exact .inl ⟨_, _, _, _, h, hrest, rfl⟩
  | stops _ ha => exact .inr ⟨ha, rfl, .inl ⟨rfl, rfl⟩⟩
  | drops ha h => exact .inr ⟨ha, rfl, .inr ⟨_, _, h, rfl⟩⟩

theorem Course.of_done {α : Type} {u : α} {v : Option α} (h : Course name (.done u) s ms v s') :
    ms = [] ∧ v = some u ∧ s' = s := by
  cases h
  exact ⟨rfl, rfl, rfl⟩

theorem Course.of_map {α β : Type} {p : Program α} {f : α → β} {v : Option β}
    (h : Course name (p >>= fun a => pure (f a)) s ms v s') :
    ∃ u, Course name p s ms u s' ∧ v = u.map f := by
  induction p generalizing s ms with
  | done u =>
    obtain ⟨rfl, rfl, rfl⟩ := Course.of_done h
    exact ⟨_, .ends u s', rfl⟩
  | crash =>
    cases h
    exact ⟨_, .crashes s', rfl⟩
  | call a next ih =>
    rcases h.of_call with ⟨r, m, s₁, rest, ha, hrest, rfl⟩ |
      ⟨ha, rfl, ⟨rfl, rfl⟩ | ⟨r, m, hr, rfl⟩⟩
    · obtain ⟨u, hu, hv⟩ := ih r hrest
      exact ⟨u, .acts ha hu, hv⟩
    · exact ⟨none, .stops s' ha, rfl⟩
    · exact ⟨none, .drops ha hr, rfl⟩

/-- A status is written once at most, as the record of a finding at the time reached. -/
def Leaves (s : Standing) (ms : List Mark) (s' : Standing) : Prop :=
  s.clock.le s'.clock ∧
    (storedAt ms = [] ∧ s'.conditions = s.conditions ∨
      storedAt ms = [s'.clock] ∧ Time.IsOrdinary s'.clock ∧
        ∃ f : Finding, s'.conditions = f.recorded s'.clock s.conditions)

theorem Leaves.nothing (s : Standing) : Leaves s [] s := ⟨Instant.le_refl _, .inl ⟨rfl, rfl⟩⟩

theorem Leaves.asks {α : Type} {a : Action} {next : a.Reply → Program α} {v : Option α}
    (ha : ∀ r m s₁, Answers name s a r m s₁ → m = .asked a ∧ s₁ = s)
    (hn : ∀ r rest, Answers name s a r (.asked a) s → Course name (next r) s rest v s' →
      Leaves s rest s')
    (h : Course name (.call a next) s ms v s') : Leaves s ms s' := by
  rcases h.of_call with ⟨r, m, s₁, rest, hr, hrest, rfl⟩ | ⟨_, _, ⟨rfl, rfl⟩ | ⟨r, m, hr, rfl⟩⟩
  · obtain ⟨rfl, rfl⟩ := ha r m s₁ hr
    exact hn r rest hr hrest
  · exact .nothing s'
  · obtain ⟨rfl, rfl⟩ := ha r m s' hr
    exact .nothing s'

theorem Answers.of_others {a : Action} (ha : ¬concerns name a) {r : a.Reply} {m : Mark}
    (h : Answers name s a r m s₁) : m = .asked a ∧ s₁ = s := by
  cases h with
  | reads => exact absurd rfl ha
  | finds | misses => exact ⟨rfl, rfl⟩
  | stores => simp [concerns] at ha
  | refuses => exact ⟨rfl, rfl⟩
  | others => exact ⟨rfl, rfl⟩

theorem Answers.of_find {r : Except StoreError (Option Descriptor)} {m : Mark}
    (h : Answers name s (.findCluster name) r m s₁) :
    m = .asked (.findCluster name) ∧ s₁ = s ∧
      ∀ d, r = .ok (some d) → d.conditions = s.conditions := by
  cases h with
  | finds hd =>
    refine ⟨rfl, rfl, ?_⟩
    intro d h
    cases h
    exact hd
  | misses hr => exact ⟨rfl, rfl, fun d h => absurd h (hr d)⟩
  | others _ ha => simp [concerns] at ha

theorem Answers.of_now {t : Instant} {m : Mark} (h : Answers name s .now t m s₁) :
    Time.IsOrdinary t ∧ s.clock.le t ∧ m = .read t ∧ s₁ = { s with clock := t } := by
  cases h with
  | reads ht hle => exact ⟨ht, hle, rfl, rfl⟩
  | others _ ha => exact absurd rfl ha

theorem Answers.of_write {st : Status} {r : Except StoreError Unit} {m : Mark}
    (h : Answers name s (.writeStatus name st) r m s₁) :
    m = .stored s.clock ∧ s₁ = { s with conditions := st.conditions } ∨
      m = .asked (.writeStatus name st) ∧ s₁ = s := by
  cases h with
  | stores => exact .inl ⟨rfl, rfl⟩
  | refuses => exact .inr ⟨rfl, rfl⟩
  | others _ ha => simp [concerns] at ha

theorem Course.of_persist {cs : List Condition} {then_ : Except PassError PassOutcome}
    {v : Option (Except PassError PassOutcome)}
    (h : Course name (persist name cs then_) s ms v s') :
    ms = [.stored s.clock] ∧ s' = { s with conditions := cs } ∨
      (ms = [] ∨ ms = [.asked (.writeStatus name ⟨cs⟩)]) ∧ s' = s := by
  have hw : ∀ r m s₁, Answers name s (.writeStatus name ⟨cs⟩) r m s₁ →
      [m] = [.stored s.clock] ∧ s₁ = { s with conditions := cs } ∨
        ([m] = [] ∨ [m] = [.asked (.writeStatus name ⟨cs⟩)]) ∧ s₁ = s := by
    intro r m s₁ hr
    rcases hr.of_write with ⟨rfl, rfl⟩ | ⟨rfl, rfl⟩
    · exact .inl ⟨rfl, rfl⟩
    · exact .inr ⟨.inr rfl, rfl⟩
  rcases h.of_call with ⟨r, m, s₁, rest, hr, hrest, rfl⟩ | ⟨_, _, ⟨rfl, rfl⟩ | ⟨r, m, hr, rfl⟩⟩
  · -- Whatever the reply, nothing is done after it.
    obtain ⟨rfl, rfl⟩ : rest = [] ∧ s' = s₁ := by
      cases r with
      | error e => exact ⟨hrest.of_done.1, hrest.of_done.2.2⟩
      | ok _ => exact ⟨hrest.of_done.1, hrest.of_done.2.2⟩
    exact hw r m s' hr
  · exact .inr ⟨.inl rfl, rfl⟩
  · exact hw r m s' hr

theorem leaves_record (f : Finding) {then_ : Except PassError PassOutcome}
    {v : Option (Except PassError PassOutcome)}
    (h : Course name (.call .now fun t => persist name (f.recorded t s.conditions) then_)
      s ms v s') : Leaves s ms s' := by
  rcases h.of_call with ⟨t, m, s₁, rest, hr, hrest, rfl⟩ | ⟨ha, _⟩
  · obtain ⟨ht, hle, rfl, rfl⟩ := hr.of_now
    rcases hrest.of_persist with ⟨rfl, rfl⟩ | ⟨rfl | rfl, rfl⟩
    · exact ⟨hle, .inr ⟨rfl, ht, f, rfl⟩⟩
    · exact ⟨hle, .inl ⟨rfl, rfl⟩⟩
    · exact ⟨hle, .inl ⟨rfl, rfl⟩⟩
  · exact absurd rfl ha

theorem leaves_pass {v : Option (Except PassError PassOutcome)}
    (h : Course name (pass interval name) s ms v s') : Leaves s ms s' := by
  refine Leaves.asks (fun r m s₁ hr => ⟨hr.of_find.1, hr.of_find.2.1⟩) ?_ h
  intro r ms hr h
  rcases r with e | d | d
  · obtain ⟨rfl, _, rfl⟩ := Course.of_done h
    exact .nothing s'
  · obtain ⟨rfl, _, rfl⟩ := Course.of_done h
    exact .nothing s'
  · have hd := hr.of_find.2.2 d rfl
    refine Leaves.asks (fun r m s₁ hr => hr.of_others (by simp [concerns])) ?_ h
    intro r ms _ h
    cases r with
    | none =>
      simp only [recordMiss, hd] at h
      exact leaves_record .miss h
    | some c =>
      refine Leaves.asks (fun r m s₁ hr => hr.of_others (by simp [concerns])) ?_ h
      intro answer ms _ h
      simp only [Program.bind, hd, merge_observe] at h
      exact leaves_record (.ofAnswer answer) h

theorem Course.of_reconcile {d : Descriptor} {v : Option (Plan × Option PassError)}
    (hname : d.name = name) (hd : d.conditions = s.conditions)
    (h : Course name (reconcile interval d) s ms v s') :
    ∃ r rest, Time.IsOrdinary r ∧ s.clock.le r ∧ ms = .read r :: rest ∧
      match remaining? s.conditions r interval with
      | some left => rest = [] ∧ v = some (.requeue left, none) ∧ s' = { s with clock := r }
      | none => ∃ u, Course name (pass interval name) { s with clock := r } rest u s' ∧
          (u = none → v = none) := by
  rcases h.of_call with ⟨r, m, s₁, rest, hr, hrest, rfl⟩ | ⟨ha, _⟩
  · obtain ⟨ht, hle, rfl, rfl⟩ := hr.of_now
    refine ⟨r, rest, ht, hle, rfl, ?_⟩
    simp only [Program.bind, hd] at hrest
    cases hl : remaining? s.conditions r interval with
    | some left =>
      simp only [hl] at hrest
      exact hrest.of_done
    | none =>
      simp only [hl, hname] at hrest
      obtain ⟨u, hu, rfl⟩ := hrest.of_map
      exact ⟨u, hu, fun h => by rw [h, Option.map_none]⟩
  · exact absurd rfl ha

def Apart (interval : Span) (later earlier : Instant) : Prop :=
  earlier.count + interval.nanos ≤ later.count

structure Steady (interval : Span) (cs : List Check) (s : Standing) : Prop where
  stamps : ∀ t ∈ s.conditions.filterMap Condition.updatedAt?, t.le s.clock
  latest : ∀ w, (written cs).head? = some w →
    Condition.latestUpdate? s.conditions = some w ∧ Time.IsOrdinary w ∧ w.le s.clock
  apart : (written cs).Pairwise (Apart interval)

theorem Steady.waits {cs : List Check} {d : Descriptor} {v : Option (Plan × Option PassError)}
    {w r : Instant} {rest : List Mark} (h : Steady interval cs s) (hname : d.name = name)
    (hd : d.conditions = s.conditions)
    (hc : Course name (reconcile interval d) s (.read r :: rest) v s')
    (hw : (written cs).head? = some w) (hr : r.count < w.count + interval.nanos) :
    rest = [] ∧ v = some (.requeue ⟨interval.nanos - (r.count - w.count).toNat⟩, none) := by
  obtain ⟨r', rest', hord, hle, hms, hcase⟩ := hc.of_reconcile hname hd
  cases hms
  obtain ⟨hl, hwo, hws⟩ := h.latest w hw
  rw [remaining?_eq hl hwo.leap hord.leap (Instant.le_trans hws hle), if_pos hr] at hcase
  exact ⟨hcase.1, hcase.2.1⟩

theorem Steady.idle {cs : List Check} {c : Check} (h : Steady interval cs s)
    (hc : storedAt c.marks = []) (hs : s'.conditions = s.conditions)
    (hle : s.clock.le s'.clock) : Steady interval (c :: cs) s' := by
  have hw : written (c :: cs) = written cs := by
    simp [written, hc]
  refine ⟨?_, ?_, ?_⟩
  · rw [hs]
    exact fun t ht => Instant.le_trans (h.stamps t ht) hle
  · rw [hs, hw]
    intro w hw
    obtain ⟨hl, hwo, hws⟩ := h.latest w hw
    exact ⟨hl, hwo, Instant.le_trans hws hle⟩
  · rw [hw]
    exact h.apart

theorem Steady.due {cs : List Check} {r : Instant} (h : Steady interval cs s)
    (hr : Time.IsOrdinary r) (hle : s.clock.le r)
    (hn : remaining? s.conditions r interval = none) : ∀ w ∈ written cs, Apart interval r w := by
  have hapart := h.apart
  have hlatest := h.latest
  cases hw : written cs with
  | nil => exact fun w hm => absurd hm List.not_mem_nil
  | cons w ws =>
    rw [hw] at hapart hlatest
    obtain ⟨hl, hwo, hws⟩ := hlatest w rfl
    have hdue : Apart interval r w := by
      rw [remaining?_eq hl hwo.leap hr.leap (Instant.le_trans hws hle)] at hn
      split at hn
      · cases hn
      · next hlt => exact Int.not_lt.1 hlt
    intro w' hm
    rcases List.mem_cons.1 hm with rfl | hm
    · exact hdue
    · have hbefore := (List.pairwise_cons.1 hapart).1 w' hm
      unfold Apart at *
      omega

theorem Steady.goes {cs : List Check} {d : Descriptor} {v : Option (Plan × Option PassError)}
    (h : Steady interval cs s) (hname : d.name = name) (hd : d.conditions = s.conditions)
    (hc : Course name (reconcile interval d) s ms v s') : Steady interval (⟨ms, v⟩ :: cs) s' := by
  obtain ⟨r, rest, hr, hle, rfl, hcase⟩ := hc.of_reconcile hname hd
  cases hn : remaining? s.conditions r interval with
  | some left =>
    rw [hn] at hcase
    obtain ⟨rfl, _, rfl⟩ := hcase
    exact h.idle rfl rfl hle
  | none =>
    rw [hn] at hcase
    obtain ⟨u, hp, _⟩ := hcase
    obtain ⟨hle', ⟨hw, hs⟩ | ⟨hw, hord, f, hf⟩⟩ := leaves_pass hp
    · exact h.idle hw hs (Instant.le_trans hle hle')
    · -- The new stamp is the latest one, and comes an interval after the last at least.
      have hcons : written (⟨.read r :: rest, v⟩ :: cs) = s'.clock :: written cs := by
        have hmarks : storedAt (.read r :: rest) = [s'.clock] := hw
        simp [written, hmarks]
      have hstamps : ∀ t ∈ s.conditions.filterMap Condition.updatedAt?, t.le s'.clock :=
        fun t ht => Instant.le_trans (h.stamps t ht) (Instant.le_trans hle hle')
      obtain ⟨hlatest, hall⟩ := latestUpdate?_recorded f hord hstamps
      refine ⟨?_, ?_, ?_⟩
      · rw [hf]
        exact hall
      · rw [hcons, hf]
        rintro w ⟨rfl⟩
        exact ⟨hlatest, hord, Instant.le_refl _⟩
      · rw [hcons, List.pairwise_cons]
        refine ⟨?_, h.apart⟩
        intro w hm
        have hdue := h.due hr hle hn w hm
        have hcount := Instant.count_le_of_le hr.leap hle'
        unfold Apart at *
        omega

theorem steady_of_checks {start : Standing} {cs : List Check}
    (hstart : ∀ t ∈ start.conditions.filterMap Condition.updatedAt?, t.le start.clock)
    (h : Checks interval name start cs s) : Steady interval cs s := by
  induction h with
  | here => exact ⟨hstart, nofun, .nil⟩
  | goes _ hname hd hc ih => exact ih.goes hname hd hc

/--
The last check of a run, and all the readings with which a status was written. It looks at the
clock. As long as the interval since the last of those readings is not over, that is all, and it
waits for the rest of the interval.
-/
theorem paced_of_checks {start : Standing} {c : Check} {cs : List Check}
    (hstart : ∀ t ∈ start.conditions.filterMap Condition.updatedAt?, t.le start.clock)
    (h : Checks interval name start (c :: cs) s) :
    (∃ r, c.marks.head? = some (.read r) ∧
      ∀ w, (written cs).head? = some w → r.count < w.count + interval.nanos →
        c.marks = [.read r] ∧ ∃ left : Span,
          (left.nanos : Int) = w.count + interval.nanos - r.count ∧
            c.result = some (.requeue left, none)) ∧
    (written (c :: cs)).Pairwise (Apart interval) := by
  refine ⟨?_, (steady_of_checks hstart h).apart⟩
  cases h with
  | @goes s₁ _ _ d ms v hprev hname hd hc =>
    have hsteady := steady_of_checks hstart hprev
    obtain ⟨r, rest, hord, hle, rfl, _⟩ := hc.of_reconcile hname hd
    refine ⟨r, rfl, fun w hw hr => ?_⟩
    obtain ⟨rfl, rfl⟩ := hsteady.waits hname hd hc hw hr
    obtain ⟨_, hwo, hws⟩ := hsteady.latest w hw
    have hcount := Instant.count_le_of_le hwo.leap (Instant.le_trans hws hle)
    refine ⟨rfl, _, ?_, rfl⟩
    simp only
    omega

end

theorem missed_checks :
    ∃ cs, Checks (.ofSeconds 10) "east" ⟨certified.conditions, ⟨100, 0⟩⟩ cs
        ⟨Finding.miss.recorded ⟨101, 5⟩ certified.conditions, ⟨101, 5⟩⟩ ∧
      written cs = [⟨101, 5⟩] := by
  refine ⟨[⟨[.read ⟨100, 0⟩, .asked (.findCluster "east"), .asked (.lookUp "east"),
    .read ⟨101, 5⟩, .stored ⟨101, 5⟩],
    some (.requeue (.ofSeconds 10), some (.cacheMiss "east"))⟩], ?_, rfl⟩
  refine .goes (d := certified) .here rfl rfl ?_
  refine .acts (.reads ⟨by decide, by decide, by decide⟩ (by decide)) ?_
  refine .acts (.finds (d := certified) rfl) ?_
  refine .acts (.others none (by decide)) ?_
  refine .acts (.reads ⟨by decide, by decide, by decide⟩ (by decide)) ?_
  refine .acts (.stores ⟨Finding.miss.recorded ⟨101, 5⟩ certified.conditions⟩ (.ok ())) ?_
  exact .ends _ _

theorem paced_certified : ∃ c cs s,
    Checks (.ofSeconds 10) "east" ⟨certified.conditions, ⟨100, 0⟩⟩ (c :: cs) s ∧
    (written cs).head? = some ⟨101, 5⟩ ∧ c.marks = [.read ⟨103, 7⟩] ∧
    c.result = some (.requeue ⟨7999999998⟩, none) ∧
    (written (c :: cs)).Pairwise (Apart (.ofSeconds 10)) := by
  obtain ⟨cs, h, hw⟩ := missed_checks
  have hw' : (written cs).head? = some ⟨101, 5⟩ := by rw [hw, List.head?_cons]
  have hstart : ∀ t ∈ certified.conditions.filterMap Condition.updatedAt?, t.le ⟨100, 0⟩ := by
    simp [certified, Descriptor.conditions, Condition.updatedAt?]
  obtain ⟨hl, hord, _⟩ := (steady_of_checks hstart h).latest _ hw'
  have hleft : remaining? (Finding.miss.recorded ⟨101, 5⟩ certified.conditions) ⟨103, 7⟩
      (.ofSeconds 10) = some ⟨7999999998⟩ := by
    rw [remaining?_eq hl rfl rfl (by decide)]
    decide
  let d := certified.withStatus ⟨Finding.miss.recorded ⟨101, 5⟩ certified.conditions⟩
  have hc : Course "east" (reconcile (.ofSeconds 10) d)
      ⟨Finding.miss.recorded ⟨101, 5⟩ certified.conditions, ⟨101, 5⟩⟩ [.read ⟨103, 7⟩]
      (some (.requeue ⟨7999999998⟩, none))
      ⟨Finding.miss.recorded ⟨101, 5⟩ certified.conditions, ⟨103, 7⟩⟩ := by
    refine .acts (.reads ⟨by decide, by decide, by decide⟩ (by decide)) ?_
    rw [Program.bind, Descriptor.conditions_withStatus, hleft]
    exact .ends _ _
  have hrun := h.goes (d := d) rfl rfl hc
  obtain ⟨⟨r, hread, hwait⟩, hapart⟩ := paced_of_checks hstart hrun
  cases hread
  obtain ⟨hm, _⟩ := hwait _ hw' (by decide)
  exact ⟨_, cs, _, hrun, hw', hm, rfl, hapart⟩

end ClusterFleet.Health
