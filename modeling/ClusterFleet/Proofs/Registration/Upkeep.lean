import ClusterFleet.Proofs.Registration.Provenance
import ClusterFleet.Registration.Watch

namespace ClusterFleet.Registration

inductive Change where
  | stored (d : Descriptor)
  | removed (d : Descriptor)

namespace Change

def name : Change → String
  | .stored d | .removed d => d.name

def apply (t : Table Descriptor) : Change → Table Descriptor
  | .stored d => t.insert d.name d
  | .removed d => t.erase d.name

def notice : Change → Notice
  | .stored d => .applied d
  | .removed d => .deleted d

def call : Change → Call
  | .stored d => .register d
  | .removed d => .unregister d.name

end Change

theorem handle_notice (settings : RegistrationSettings) (c : Change) :
    handle settings c.notice = (do
      let _ ← c.call.attempt settings
      return ()) := by
  cases c <;> rfl

/-- The store, the watch over it, and all tasks, those of the watch among them. -/
structure Upkeep where
  crew : Crew Call (Except RegistrationError Unit)
  stored : Table Descriptor
  /-- Changes that have not been handled, the oldest first. -/
  waiting : List Change
  /-- The task that handles the latest of the others. -/
  watch : Option Nat

inductive Occurrence where
  | changed (c : Change)
  | handled (i : Nat) (c : Change)
  | went (e : Event Call)

namespace Upkeep

def initial (w : World) : Upkeep := ⟨.idle w, [], [], none⟩

inductive Step (settings : RegistrationSettings) : Upkeep → Occurrence → Upkeep → Prop
  | changes {s : Upkeep} (c : Change)
    (hc : ∀ d, c = .removed d → s.stored.find? d.name = some d) :
    Step settings s (.changed c)
      { s with stored := c.apply s.stored, waiting := s.waiting ++ [c] }
  /-- The watch takes up a change when it is done with the one before. -/
  | handles {s : Upkeep} {i : Nat} {c : Change} {rest : List Change}
    {crew : Crew Call (Except RegistrationError Unit)} (hw : s.waiting = c :: rest)
    (hfree : ∀ j, s.watch = some j → ∃ k v, s.crew.tasks j = some ⟨k, .done v⟩)
    (hs : Crew.Step (Call.attempt settings) s.crew (.began i c.call) crew) :
    Step settings s (.handled i c) { s with crew, waiting := rest, watch := some i }
  /-- Only the watch registers and unregisters. What is listed is stored. -/
  | goes {s : Upkeep} {e : Event Call} {crew : Crew Call (Except RegistrationError Unit)}
    (he : ∀ i k, e = .began i k → k.isUpkeep = false)
    (hl : ∀ i ds, e = .acted i .listClusters (.ok ds) → ∀ d ∈ ds, s.stored.find? d.name = some d)
    (hs : Crew.Step (Call.attempt settings) s.crew e crew) :
    Step settings s (.went e) { s with crew }

/-- From one state to another by these occurrences, the latest of them first. -/
inductive Run (settings : RegistrationSettings) (start : Upkeep) :
    List Occurrence → Upkeep → Prop
  | here : Run settings start [] start
  | step {s s' : Upkeep} {o : Occurrence} {log : List Occurrence} (h : Run settings start log s)
    (hs : Step settings s o s') : Run settings start (o :: log) s'

end Upkeep

def Occurrence.event? : Occurrence → Option (Event Call)
  | .changed _ => none
  | .handled i c => some (.began i c.call)
  | .went e => some e

def events (log : List Occurrence) : List (Event Call) := log.filterMap Occurrence.event?

def Occurrence.changed? (name : String) : Occurrence → Option Change
  | .changed c => if c.name = name then some c else none
  | _ => none

def Occurrence.handled? (name : String) : Occurrence → Option Change
  | .handled _ c => if c.name = name then some c else none
  | _ => none

section
variable {settings : RegistrationSettings} {s s' start : Upkeep} {o : Occurrence}
  {log later : List Occurrence} {name : String}

namespace Upkeep

theorem Run.cut (h : Run settings start (later ++ log) s') :
    ∃ s, Run settings start log s ∧ Run settings s later s' := by
  induction later generalizing s' with
  | nil => exact ⟨s', h, .here⟩
  | cons o later ih =>
    cases h with
    | step h hs =>
      obtain ⟨s, hlog, hlater⟩ := ih h
      exact ⟨s, hlog, hlater.step hs⟩

theorem Run.crew (h : Run settings start log s) :
    Crew.Run (Call.attempt settings) start.crew (events log) s.crew := by
  induction h with
  | here => exact .here
  | step _ hs ih =>
    cases hs with
    | changes => exact ih
    | handles _ _ hs => exact ih.step hs
    | goes _ _ hs => exact ih.step hs

theorem Run.changed_eq (h : Run settings start log s) (hnone : start.waiting = [])
    (name : String) :
    log.filterMap (Occurrence.changed? name) =
      (s.waiting.filter (·.name = name)).reverse ++ log.filterMap (Occurrence.handled? name) := by
  induction h with
  | here => simp [hnone]
  | step _ hs ih =>
    cases hs with
    | changes c _ =>
      by_cases hc : c.name = name <;>
        simp [List.filterMap_cons, Occurrence.changed?, Occurrence.handled?, hc, ih]
    | @handles i c rest crew hw _ _ =>
      by_cases hc : c.name = name <;>
        simp [List.filterMap_cons, Occurrence.changed?, Occurrence.handled?, hc, ih, hw]
    | goes => simpa [List.filterMap_cons, Occurrence.changed?, Occurrence.handled?] using ih

theorem Run.find?_stored (h : Run settings start log s)
    (hlog : ∀ o ∈ log, o.changed? name = none) :
    s.stored.find? name = start.stored.find? name := by
  induction h with
  | here => rfl
  | step _ hs ih =>
    obtain ⟨ho, hlog⟩ := List.forall_mem_cons.1 hlog
    rw [← ih hlog]
    cases hs with
    | changes c _ =>
      have hne : name ≠ c.name := by
        rintro rfl
        simp [Occurrence.changed?] at ho
      cases c with
      | stored d => exact Table.find?_insert_of_ne hne d _
      | removed d => exact Table.find?_erase_of_ne hne _
    | handles => rfl
    | goes => rfl

theorem Run.handled {w : World} (h : Run settings (initial w) log s) {i : Nat} {c : Change}
    (hc : .handled i c ∈ log) : s.watch = some i ∨ ∃ k v, s.crew.tasks i = some ⟨k, .done v⟩ := by
  induction h with
  | here => cases hc
  | @step s s' o log _ hs ih =>
    cases hs with
    | changes => exact ih (by simpa using hc)
    | @handles j c' rest crew hw hfree hs =>
      rcases List.mem_cons.1 hc with hc | hc
      · cases hc
        exact .inl rfl
      · obtain ⟨k, v, hd⟩ : ∃ k v, s.crew.tasks i = some ⟨k, .done v⟩ :=
          (ih hc).elim (hfree i) id
        exact .inr ⟨k, v, (hs.done hd).2⟩
    | goes he hl hs =>
      refine (ih (by simpa using hc)).imp_right ?_
      rintro ⟨k, v, hd⟩
      exact ⟨k, v, (hs.done hd).2⟩

theorem Run.exists_handled {w : World} (h : Run settings (initial w) log s) {i : Nat}
    {t : Task Call (Except RegistrationError Unit)} (ht : s.crew.tasks i = some t)
    (hk : t.call.isUpkeep) : ∃ c, .handled i c ∈ log ∧ t.call = c.call := by
  induction h generalizing t with
  | here => cases ht
  | @step s s' o log _ hs ih =>
    -- Whose call was there before has been accounted for.
    have hbefore : ∀ {p}, s.crew.tasks i = some ⟨t.call, p⟩ →
        ∃ c, .handled i c ∈ o :: log ∧ t.call = c.call := by
      intro p hp
      obtain ⟨c, hc, hcall⟩ := ih hp hk
      exact ⟨c, List.mem_cons_of_mem _ hc, hcall⟩
    cases hs with
    | changes => exact hbefore ht
    | @handles j c rest crew hw hfree hs =>
      rcases hs.began_or ht with hb | ⟨p, hp⟩
      · obtain ⟨rfl, hcall⟩ := Event.began.inj hb
        exact ⟨c, List.mem_cons_self, hcall.symm⟩
      · exact hbefore hp
    | goes he hl hs =>
      rcases hs.began_or ht with hb | ⟨p, hp⟩
      · rw [he i t.call hb] at hk
        cases hk
      · exact hbefore hp

theorem Run.listed (h : Run settings start log s) {i : Nat} {d : Descriptor}
    (hd : Listed (events log) i d) (hlog : ∀ o ∈ log, o.changed? d.name = none) :
    start.stored.find? d.name = some d := by
  obtain ⟨ds, he, hd⟩ := hd
  induction h with
  | here => cases he
  | @step s s' o log h hs ih =>
    have htail := (List.forall_mem_cons.1 hlog).2
    cases hs with
    | changes => exact ih htail he
    | handles =>
      rcases List.mem_cons.1 he with he | he
      · cases he
      · exact ih htail he
    | goes _ hl _ =>
      rcases List.mem_cons.1 he with he | he
      · rw [← h.find?_stored htail]
        exact hl i ds he.symm d hd
      · exact ih htail he

end Upkeep
end

theorem isUpkeep_call (c : Change) : c.call.isUpkeep := by
  cases c <;> rfl

section
variable {settings : RegistrationSettings} {w : World} {s : Upkeep} {c : Change} {i j : Nat}
  {earlier later : List Occurrence} {a : Action} {r : a.Reply}

theorem name_of_touches {log : List (Event Call)} (hg : Grounded settings log i c.call a)
    {name : String} (ha : a.touches name) : c.name = name := by
  cases c with
  | stored d =>
    cases a with
    | insert x =>
      obtain ⟨d', rfl, hd⟩ := hg
      exact hd.name.symm.trans (by simpa [Action.touches] using ha)
    | erase n => cases hg
    | clear => cases hg
    | _ => cases ha
  | removed d =>
    cases a with
    | insert x =>
      obtain ⟨d', hd', _⟩ := hg
      cases hd'
    | erase n =>
      cases hg
      simpa [Action.touches, Change.name] using ha
    | clear => cases hg
    | _ => cases ha

theorem touches_of_settles {log : List (Event Call)} (hg : Grounded settings log i c.call a)
    (ha : c.call.Settles a) : a.touches c.name := by
  cases c with
  | stored d =>
    cases a with
    | insert x =>
      obtain ⟨d', rfl, hd⟩ := hg
      simp [Action.touches, Change.name, hd.name]
    | _ => cases ha
  | removed d =>
    cases ha
    simp [Action.touches, Change.name]

theorem exists_handles (h : Upkeep.Run settings (.initial w) (later ++ .handled i c :: earlier) s) :
    ∃ s₁ s₂ : Upkeep, Upkeep.Run settings (.initial w) earlier s₁ ∧
      Upkeep.Run settings s₂ later s ∧ s₁.crew.tasks i = none ∧
      ∀ j c', .handled j c' ∈ earlier → ∃ k v, s₂.crew.tasks j = some ⟨k, .done v⟩ := by
  obtain ⟨s₂, h₂, hlater⟩ := h.cut
  cases h₂ with
  | @step s₁ _ _ _ h₁ hs =>
    refine ⟨s₁, s₂, h₁, hlater, ?_⟩
    cases hs with
    | handles hw hfree hs =>
      refine ⟨?_, ?_⟩
      · cases hs with
        | begins _ hnone => exact hnone
      · intro j c' hc
        obtain ⟨k, v, hd⟩ := (h₁.handled hc).elim (hfree j) id
        exact ⟨k, v, (hs.done hd).2⟩

theorem events_append (l l' : List Occurrence) : events (l ++ l') = events l ++ events l' :=
  List.filterMap_append

theorem events_handled (l : List Occurrence) :
    events (.handled i c :: l) = .began i c.call :: events l := rfl

/-- A change that was handled left its mark on the cache. -/
theorem settled_of_run (hempty : w.connections = [])
    (hhook : ∀ h, w.hook = some h → h = .reload settings)
    (h : Upkeep.Run settings (.initial w) (later ++ .handled i c :: earlier) s)
    (hdone : s.crew.tasks i = some ⟨c.call, .done (.ok ())⟩) :
    ∃ a r, .acted i a r ∈ events later ∧ a.touches c.name := by
  rcases acted_of_run (owes_attempt settings) h.crew hdone with ⟨a, r, ha, hsettles⟩ | howes
  · obtain ⟨t, ht, hg⟩ := grounded_of_attempts hempty hhook h.crew (fun _ he => he) ha
    obtain rfl := Option.some.inj (ht.symm.trans hdone)
    refine ⟨a, r, ?_, touches_of_settles hg hsettles⟩
    rw [events_append, events_handled] at ha
    rcases List.mem_append.1 ha with ha | ha
    · exact ha
    · -- Before it was begun, the task had no part in anything.
      obtain ⟨s₁, _, h₁, _, hnone, _⟩ := exists_handles h
      rcases List.mem_cons.1 ha with ha | ha
      · cases ha
      · obtain ⟨t, ht⟩ := h₁.crew.exists_task ha
        exact absurd (hnone.symm.trans ht) nofun
  · exact absurd ⟨isUpkeep_call c, rfl⟩ howes

theorem eq_of_touches (hempty : w.connections = [])
    (hhook : ∀ h, w.hook = some h → h = .reload settings)
    (h : Upkeep.Run settings (.initial w) (later ++ .handled i c :: earlier) s)
    (hlater : ∀ o ∈ later, o.handled? c.name = none) (ha : .acted j a r ∈ events later)
    (hn : a.touches c.name) {t : Task Call (Except RegistrationError Unit)}
    (ht : s.crew.tasks j = some t) (hk : t.call.isUpkeep) : j = i := by
  obtain ⟨c', hc, hcall⟩ := h.exists_handled ht hk
  have hname : c'.name = c.name := by
    have hlog : .acted j a r ∈ events (later ++ .handled i c :: earlier) := by
      rw [events_append]
      exact List.mem_append_left _ ha
    obtain ⟨t', ht', hg⟩ := grounded_of_attempts hempty hhook h.crew (fun _ he => he) hlog
    obtain rfl := Option.some.inj (ht'.symm.trans ht)
    rw [hcall] at hg
    exact name_of_touches hg hn
  rcases List.mem_append.1 hc with hc | hc
  · have hno := hlater _ hc
    simp [Occurrence.handled?, hname] at hno
  · rcases List.mem_cons.1 hc with hc | hc
    · cases hc
      rfl
    · -- The tasks of earlier changes were over before this one began.
      obtain ⟨_, s₂, _, h₂, _, hall⟩ := exists_handles h
      obtain ⟨k, v, hd⟩ := hall j c' hc
      exact absurd rfl ((h₂.crew.done hd).1 _ ha)

/-- What puts `x` into the cache comes from a list of before the change, and after task `i`. -/
def Overtakes (settings : RegistrationSettings) (log before : List Occurrence) (i : Nat)
    (name : String) (x : Connection) : Prop :=
  ∃ j d later earlier, events log = later ++ .acted j (.insert x) () :: earlier ∧
    (∃ a r, .acted i a r ∈ earlier ∧ a.touches name) ∧
    Listed (events before) j d ∧ d.name = name ∧ Describes settings d x

/-- The latest action on a name, if a change of the name was handled and left its mark. -/
theorem latest_touch {log : List (Event Call)} {name : String}
    (ha : .acted i a r ∈ log) (hn : a.touches name) :
    ∃ l₂ j b q l₁, log = l₂ ++ .acted j b q :: l₁ ∧ b.touches name ∧
      (∀ e ∈ l₂, e.touches name = false) ∧ (j = i ∨ .acted i a r ∈ l₁) := by
  have hsome : (log.find? (·.touches name)).isSome :=
    List.find?_isSome.2 ⟨_, ha, hn⟩
  obtain ⟨e, he⟩ := Option.isSome_iff_exists.1 hsome
  obtain ⟨htouch, l₂, l₁, rfl, hl₂⟩ := List.find?_eq_some_iff_append.1 he
  cases e with
  | acted j b q =>
    refine ⟨l₂, j, b, q, l₁, rfl, htouch, fun e he => by simpa using hl₂ e he, ?_⟩
    rcases List.mem_append.1 ha with ha | ha
    · have hno := hl₂ _ ha
      simp [Event.touches, hn] at hno
    · rcases List.mem_cons.1 ha with ha | ha
      · cases ha
        exact .inl rfl
      · exact .inr ha
  | _ => cases htouch

def Shows (settings : RegistrationSettings) (log before : List Occurrence) (i : Nat)
    (connections : Table Connection) : Change → Prop
  | .stored d => ∃ x, connections.find? d.name = some x ∧
    (Describes settings d x ∨ Overtakes settings log before i d.name x)
  | .removed d => ∀ x, connections.find? d.name = some x →
    Overtakes settings log before i d.name x

theorem exists_last_handled {after before : List Occurrence}
    (h : Upkeep.Run settings (.initial w) (after ++ .changed c :: before) s)
    (hlast : ∀ o ∈ after, o.changed? c.name = none)
    (hnone : ∀ c' ∈ s.waiting, c'.name ≠ c.name) :
    ∃ i later earlier, after = later ++ .handled i c :: earlier ∧
      ∀ o ∈ later, o.handled? c.name = none := by
  have hwait : s.waiting.filter (·.name = c.name) = [] := by
    simpa [List.filter_eq_nil_iff] using hnone
  have hafter : after.filterMap (Occurrence.changed? c.name) = [] :=
    List.filterMap_eq_nil_iff.2 hlast
  have hall := h.changed_eq rfl c.name
  simp only [List.filterMap_append, List.filterMap_cons, hafter, hwait, Occurrence.changed?,
    Occurrence.handled?, if_true, List.nil_append, List.reverse_nil] at hall
  obtain ⟨s₂, h₂, _⟩ := h.cut
  cases h₂ with
  | @step s₁ _ _ _ h₁ _ =>
    have hbefore := h₁.changed_eq rfl c.name
    cases hl : after.filterMap (Occurrence.handled? c.name) with
    | nil =>
      -- More would have been handled before the change than had changed by then.
      have hlength := congrArg List.length hall
      rw [hl, hbefore] at hlength
      simp at hlength
      omega
    | cons c' rest =>
      rw [hl] at hall
      obtain ⟨rfl, _⟩ := List.cons.inj hall
      obtain ⟨later, o, earlier, rfl, hlater, ho, _⟩ := List.filterMap_eq_cons_iff.1 hl
      cases o with
      | handled i c' =>
        simp only [Occurrence.handled?] at ho
        split at ho
        · cases ho
          exact ⟨i, later, earlier, rfl, hlater⟩
        · cases ho
      | _ => cases ho

theorem listed_of_grounded {log : List (Event Call)} {k : Call} (hk : k.isUpkeep = false)
    (hg : Grounded settings log i k a) {name : String} (ha : a.touches name) :
    ∃ x d, a = .insert x ∧ Listed log i d ∧ d.name = name ∧ Describes settings d x := by
  cases a with
  | insert x =>
    obtain ⟨d, hd, hdesc⟩ := hg
    have hname : x.name = name := by simpa [Action.touches] using ha
    refine ⟨x, d, rfl, ?_, hdesc.name.symm.trans hname, hdesc⟩
    cases k <;> first | exact hd | cases hk
  | erase n =>
    cases hg
    cases hk
  | clear => cases hg
  | _ => cases ha

/-- What has been listed since the last change of a name is what was stored then. -/
theorem eq_stored_of_listed {after before : List Occurrence} {d : Descriptor}
    (h : Upkeep.Run settings (.initial w) (after ++ .changed c :: before) s)
    (hlast : ∀ o ∈ after, o.changed? c.name = none) (hd : Listed (events after) j d)
    (hname : d.name = c.name) : c = .stored d := by
  obtain ⟨s₂, h₂, hafter⟩ := h.cut
  have hfind := hafter.listed hd (by rwa [hname])
  rw [hname] at hfind
  cases h₂ with
  | step _ hs =>
    cases hs with
    | changes =>
      cases c with
      | stored d' =>
        rw [show (Change.stored d').name = d'.name from rfl] at hfind
        simp only [Change.apply, Table.find?_insert_self, Option.some_inj] at hfind
        rw [hfind]
      | removed d' =>
        rw [show (Change.removed d').name = d'.name from rfl] at hfind
        simp [Change.apply, Table.find?_erase_self] at hfind

theorem left_of_grounded {after before : List Occurrence} {l₁ l₂ : List (Event Call)}
    {k : Call} {q : a.Reply}
    (h : Upkeep.Run settings (.initial w) (after ++ .changed c :: before) s)
    (hlast : ∀ o ∈ after, o.changed? c.name = none)
    (hlog : events (after ++ .changed c :: before) = l₂ ++ .acted j a q :: l₁)
    (hg : Grounded settings (events (after ++ .changed c :: before)) j k a)
    (ha : a.touches c.name) (hk : k.isUpkeep = false)
    (hi : ∃ b r, .acted i b r ∈ l₁ ∧ b.touches c.name) :
    ∃ x d, a = .insert x ∧ Describes settings d x ∧
      (c = .stored d ∨ Overtakes settings (after ++ .changed c :: before) before i c.name x) := by
  obtain ⟨x, d, rfl, ⟨ds, hds, hd⟩, hname, hdesc⟩ := listed_of_grounded hk hg ha
  refine ⟨x, d, rfl, hdesc, ?_⟩
  rw [events_append] at hds
  rcases List.mem_append.1 hds with hds | hds
  · exact .inl (eq_stored_of_listed h hlast ⟨ds, hds, hd⟩ hname)
  · exact .inr ⟨j, d, l₂, l₁, hlog, hi, ⟨ds, hds, hd⟩, hname, hdesc⟩

theorem shows_of_grounded {l : List (Event Call)} {log before : List Occurrence}
    {connections : Table Connection} (hg : Grounded settings l j c.call a)
    (ha : a.touches c.name) (hfind : connections.find? c.name = a.left?) :
    Shows settings log before i connections c := by
  cases c with
  | stored d =>
    cases a with
    | insert x =>
      obtain ⟨d', rfl, hd⟩ := hg
      exact ⟨x, hfind, .inl hd⟩
    | erase n => cases hg
    | clear => cases hg
    | _ => cases ha
  | removed d =>
    cases a with
    | insert x =>
      obtain ⟨d', hd, _⟩ := hg
      cases hd
    | erase n => exact fun x hx => absurd (hx.symm.trans hfind) nofun
    | clear => cases hg
    | _ => cases ha

/-- What another task leaves shows the change as well, if it has not overtaken it. -/
theorem shows_of_describes {log before : List Occurrence} {connections : Table Connection}
    {x : Connection} {d : Descriptor} (hdesc : Describes settings d x)
    (hc : c = .stored d ∨ Overtakes settings log before i c.name x)
    (hfind : connections.find? c.name = some x) : Shows settings log before i connections c := by
  cases c with
  | stored d' =>
    refine ⟨x, hfind, hc.imp_left ?_⟩
    rintro ⟨rfl⟩
    exact hdesc
  | removed d' =>
    intro x' hx
    obtain rfl : x' = x := Option.some.inj (hx.symm.trans hfind)
    exact hc.resolve_left nofun

/--
The last change of a descriptor, when no change of it waits to be handled any more. Once the task
that handled it is done, the cache shows it, or what has overtaken it.
-/
theorem shows_of_run (hempty : w.connections = [])
    (hhook : ∀ h, w.hook = some h → h = .reload settings) {after before : List Occurrence}
    (h : Upkeep.Run settings (.initial w) (after ++ .changed c :: before) s)
    (hlast : ∀ o ∈ after, o.changed? c.name = none)
    (hnone : ∀ c' ∈ s.waiting, c'.name ≠ c.name) :
    ∃ i later earlier, after = later ++ .handled i c :: earlier ∧
      (∀ o ∈ later, o.handled? c.name = none) ∧
      (s.crew.tasks i = some ⟨c.call, .done (.ok ())⟩ →
        Shows settings (after ++ .changed c :: before) before i s.crew.world.connections c) := by
  obtain ⟨i, later, earlier, rfl, hlater⟩ := exists_last_handled h hlast hnone
  refine ⟨i, later, earlier, rfl, hlater, fun hdone => ?_⟩
  have h' : Upkeep.Run settings (.initial w)
      (later ++ .handled i c :: (earlier ++ .changed c :: before)) s := by
    simpa using h
  obtain ⟨a, r, ha, hn⟩ := settled_of_run hempty hhook h' hdone
  obtain ⟨l₂, j, b, q, l₁, hevents, hb, hl₂, horder⟩ := latest_touch ha hn
  have hlog : events ((later ++ .handled i c :: earlier) ++ .changed c :: before) =
      l₂ ++ .acted j b q ::
        (l₁ ++ .began i c.call :: events (earlier ++ .changed c :: before)) := by
    rw [List.append_assoc, List.cons_append, events_append, events_handled, hevents]
    simp
  have hcrew := h.crew
  obtain ⟨t, ht, hg⟩ := grounded_of_attempts hempty hhook hcrew (fun _ he => he)
    (hlog ▸ List.mem_append_right _ List.mem_cons_self : .acted j b q ∈ events _)
  rw [hlog] at hcrew
  have hfind := Crew.find?_of_run hcrew hb hl₂
  by_cases hk : t.call.isUpkeep
  · -- It is the task that handled the change itself.
    have hj := eq_of_touches hempty hhook h' hlater
      (hevents ▸ List.mem_append_right _ List.mem_cons_self) hb ht hk
    subst hj
    obtain rfl := Option.some.inj (ht.symm.trans hdone)
    exact shows_of_grounded hg hb hfind
  · -- Otherwise it came after the task, and could only put in what it had listed.
    have hi : ∃ b r, .acted i b r ∈ l₁ ++ .began i c.call ::
        events (earlier ++ .changed c :: before) ∧ b.touches c.name := by
      refine ⟨a, r, ?_, hn⟩
      rcases horder with rfl | ha
      · obtain rfl := Option.some.inj (ht.symm.trans hdone)
        exact absurd (isUpkeep_call c) hk
      · exact List.mem_append_left _ ha
    obtain ⟨x, d, rfl, hdesc, hc⟩ := left_of_grounded h hlast hlog hg hb (by simpa using hk) hi
    exact shows_of_describes hdesc hc hfind

end

def refreshingWorld : World := { emptyWorld with hook := some (.reload {}) }

/-- The connection that a list of before the change leads to. -/
def newcomerConnection : Connection :=
  connection {} newcomer (restConfig newcomer "secret") newcomerClient

section
variable {s start : Upkeep} {log : List Occurrence} {i : Nat} {k : Call} {a : Action}
  {next : a.Reply → Program (Except RegistrationError Unit)} {r : a.Reply} {w : World}

theorem Upkeep.Run.stores (h : Upkeep.Run {} start log s) (d : Descriptor) :
    Upkeep.Run {} start (.changed (.stored d) :: log)
      { s with stored := s.stored.insert d.name d, waiting := s.waiting ++ [.stored d] } :=
  h.step (.changes (.stored d) fun _ hd => by cases hd)

theorem Upkeep.Run.removes (h : Upkeep.Run {} start log s) {d : Descriptor}
    (hd : s.stored.find? d.name = some d) :
    Upkeep.Run {} start (.changed (.removed d) :: log)
      { s with stored := s.stored.erase d.name, waiting := s.waiting ++ [.removed d] } := by
  refine h.step (.changes (.removed d) ?_)
  rintro d' ⟨rfl⟩
  exact hd

theorem Upkeep.Run.handles (h : Upkeep.Run {} start log s) {c : Change} {rest : List Change}
    (hw : s.waiting = c :: rest) (hi : s.crew.tasks i = none)
    (hfree : ∀ j, s.watch = some j → ∃ k v, s.crew.tasks j = some ⟨k, .done v⟩) :
    Upkeep.Run {} start (.handled i c :: log)
      { s with
        crew := s.crew.put i ⟨c.call, c.call.attempt {}⟩ s.crew.world
        waiting := rest
        watch := some i } :=
  h.step (.handles hw hfree (.begins c.call hi))

theorem Upkeep.Run.lists (h : Upkeep.Run {} start log s) {d : Descriptor}
    (hd : s.stored.find? d.name = some d)
    {next : Except StoreError (List Descriptor) → Program (Except RegistrationError Unit)}
    (hi : s.crew.tasks i = some ⟨k, .call .listClusters next⟩) :
    Upkeep.Run {} start (.went (.acted i .listClusters (.ok [d])) :: log)
      { s with crew := s.crew.put i ⟨k, next (.ok [d])⟩ s.crew.world } := by
  refine h.step (.goes ?_ ?_ (.acts hi (.outside nofun ⟨rfl, rfl, rfl, rfl⟩)))
  · intro j k' he
    cases he
  · intro j ds he d' hd'
    cases he
    obtain rfl := List.mem_singleton.1 hd'
    exact hd

theorem Upkeep.Run.begins (h : Upkeep.Run {} start log s) (hi : s.crew.tasks i = none)
    (hk : k.isUpkeep = false) : Upkeep.Run {} start (.went (.began i k) :: log)
      { s with crew := s.crew.put i ⟨k, k.attempt {}⟩ s.crew.world } := by
  refine h.step (.goes ?_ ?_ (.begins k hi))
  · intro j k' he
    cases he
    exact hk
  · intro j ds he
    cases he

theorem Upkeep.Run.acts (h : Upkeep.Run {} start log s)
    (hi : s.crew.tasks i = some ⟨k, .call a next⟩) (hw : s.crew.world.Answers i a r w)
    (ha : a ≠ .listClusters) : Upkeep.Run {} start (.went (.acted i a r) :: log)
      { s with crew := s.crew.put i ⟨k, next r⟩ w } := by
  refine h.step (.goes ?_ ?_ (.acts hi hw))
  · intro j k' he
    cases he
  · intro j ds he
    cases he
    exact absurd rfl ha

end

def moved : Descriptor :=
  { newcomer with spec := { newcomer.spec with apiEndpoint := "https://moved.example" } }

def movedClient : Client := ClientFactory.direct (restConfig moved "secret")

/-- A run to the end of all tasks, in which the last change was handled by task 2. -/
structure Ended (c : Change) (after before : List Occurrence) (s : Upkeep) : Prop where
  run : Upkeep.Run {} (.initial refreshingWorld) (after ++ .changed c :: before) s
  last : ∀ o ∈ after, o.changed? c.name = none
  handled : .handled 2 c ∈ after
  only : ∀ j c', .handled j c' ∈ after → j = 2
  returned : s.crew.tasks 2 = some ⟨c.call, .done (.ok ())⟩
  waiting : s.waiting = []
  tasks : ∀ i t, s.crew.tasks i = some t → ∃ v, t.rest = .done v

theorem done_of_three {s : Upkeep} (h₀ : ∃ k v, s.crew.tasks 0 = some ⟨k, .done v⟩)
    (h₁ : ∃ k v, s.crew.tasks 1 = some ⟨k, .done v⟩)
    (h₂ : ∃ k v, s.crew.tasks 2 = some ⟨k, .done v⟩) (hnone : ∀ i, s.crew.tasks (i + 3) = none)
    (i : Nat) (t : Task Call (Except RegistrationError Unit)) (ht : s.crew.tasks i = some t) :
    ∃ v, t.rest = .done v := by
  have hdone : (∃ k v, s.crew.tasks i = some ⟨k, .done v⟩) → ∃ v, t.rest = .done v := by
    rintro ⟨k, v, hd⟩
    cases ht.symm.trans hd
    exact ⟨v, rfl⟩
  rcases i with _ | _ | _ | i
  · exact hdone h₀
  · exact hdone h₁
  · exact hdone h₂
  · exact absurd ((hnone i).symm.trans ht) nofun

theorem ended_runs :
    (∃ after before s, Ended (.removed newcomer) after before s ∧
      s.crew.world.connections.find? "west" = some newcomerConnection) ∧
    ∃ after before s, Ended (.stored moved) after before s ∧
      s.crew.world.connections.find? "west" = some newcomerConnection := by
  have h₀ : Upkeep.Run {} (.initial refreshingWorld) _ _ := Upkeep.Run.here.stores newcomer
  have h₁ := h₀.begins (i := 0) (k := .list []) rfl rfl
  have h₂ := h₁.acts (i := 0) rfl (.cache rfl rfl) nofun
  have h₃ := h₂.acts (i := 0) rfl (.cache rfl rfl) nofun
  have h₄ := h₃.acts (i := 0) (a := .takeTurn) rfl (.cache rfl rfl) nofun
  have h₅ := h₄.acts (i := 0) rfl (.cache rfl rfl) nofun
  have h₆ := h₅.acts (i := 0) rfl (.cache rfl rfl) nofun
  have h₇ := h₆.acts (i := 0) rfl (.cache rfl rfl) nofun
  have h₈ := h₇.acts (i := 0) (a := .serviceHeld) (r := true) rfl
    (.outside nofun ⟨rfl, rfl, rfl, rfl⟩) nofun
  have h₉ := h₈.lists (d := newcomer) rfl (i := 0) rfl
  have h₁₀ := h₉.acts (i := 0) (a := .lookUp "west") rfl (.cache rfl rfl) nofun
  have h₁₁ := h₁₀.acts (i := 0) (a := .readSecret "members" "west-token")
    (r := .ok (some [("token", " secret ")])) rfl (.outside nofun ⟨rfl, rfl, rfl, rfl⟩) nofun
  have h₁₂ := h₁₁.acts (i := 0) (a := .buildClient (restConfig newcomer "secret"))
    (r := .built newcomerClient) rfl (.outside nofun ⟨rfl, rfl, rfl, rfl⟩) nofun
  -- The watch catches up with the first change.
  have h₁₃ := h₁₂.handles (i := 1) rfl rfl nofun
  have h₁₄ := h₁₃.acts (i := 1) (a := .lookUp "west") rfl (.cache rfl rfl) nofun
  have h₁₅ := h₁₄.acts (i := 1) (a := .readSecret "members" "west-token")
    (r := .ok (some [("token", " secret ")])) rfl (.outside nofun ⟨rfl, rfl, rfl, rfl⟩) nofun
  have h₁₆ := h₁₅.acts (i := 1) (a := .buildClient (restConfig newcomer "secret"))
    (r := .built newcomerClient) rfl (.outside nofun ⟨rfl, rfl, rfl, rfl⟩) nofun
  have h₁₇ := h₁₆.acts (i := 1) rfl (.cache rfl rfl) nofun
  refine ⟨?_, ?_⟩
  · have a₀ := h₁₇.removes (d := newcomer) rfl
    have a₁ := a₀.handles (i := 2) rfl rfl (by rintro j ⟨rfl⟩; exact ⟨_, _, rfl⟩)
    have a₂ := a₁.acts (i := 2) rfl (.cache rfl rfl) nofun
    -- Only now does the list have its effect.
    have a₃ := a₂.acts (i := 0) rfl (.cache rfl rfl) nofun
    have a₄ := a₃.acts (i := 0) rfl (.cache rfl rfl) nofun
    have a₅ := a₄.acts (i := 0) rfl (.cache rfl rfl) nofun
    have a₆ := a₅.acts (i := 0) rfl (.cache rfl rfl) nofun
    refine ⟨[_, _, _, _, _, _], _, _, ⟨a₆, ?_, ?_, ?_, rfl, rfl, ?_⟩, rfl⟩
    · simp [Occurrence.changed?]
    · simp
    · simp
    · exact done_of_three ⟨_, _, rfl⟩ ⟨_, _, rfl⟩ ⟨_, _, rfl⟩ fun _ => rfl
  · have b₀ := h₁₇.stores moved
    have b₁ := b₀.handles (i := 2) rfl rfl (by rintro j ⟨rfl⟩; exact ⟨_, _, rfl⟩)
    have b₂ := b₁.acts (i := 2) (a := .lookUp "west") rfl (.cache rfl rfl) nofun
    have b₃ := b₂.acts (i := 2) (a := .readSecret "members" "west-token")
      (r := .ok (some [("token", " secret ")])) rfl (.outside nofun ⟨rfl, rfl, rfl, rfl⟩) nofun
    have b₄ := b₃.acts (i := 2) (a := .buildClient (restConfig moved "secret"))
      (r := .built movedClient) rfl (.outside nofun ⟨rfl, rfl, rfl, rfl⟩) nofun
    have b₅ := b₄.acts (i := 2) rfl (.cache rfl rfl) nofun
    have b₆ := b₅.acts (i := 0) rfl (.cache rfl rfl) nofun
    have b₇ := b₆.acts (i := 0) rfl (.cache rfl rfl) nofun
    have b₈ := b₇.acts (i := 0) rfl (.cache rfl rfl) nofun
    have b₉ := b₈.acts (i := 0) rfl (.cache rfl rfl) nofun
    refine ⟨[_, _, _, _, _, _, _, _, _], _, _, ⟨b₉, ?_, ?_, ?_, rfl, rfl, ?_⟩, rfl⟩
    · simp [Occurrence.changed?]
    · simp
    · simp
    · exact done_of_three ⟨_, _, rfl⟩ ⟨_, _, rfl⟩ ⟨_, _, rfl⟩ fun _ => rfl

theorem shows_moved : ∃ after before s, Ended (.stored moved) after before s ∧
    Shows {} (after ++ .changed (.stored moved) :: before) before 2 s.crew.world.connections
      (.stored moved) := by
  obtain ⟨_, after, before, s, h, _⟩ := ended_runs
  have hhook : ∀ hook, refreshingWorld.hook = some hook → hook = .reload {} := by
    rintro hook ⟨rfl⟩
    rfl
  have hnone : ∀ c ∈ s.waiting, c.name ≠ "west" := by
    rw [h.waiting]
    exact nofun
  obtain ⟨i, later, earlier, hafter, _, hshows⟩ := shows_of_run rfl hhook h.run h.last hnone
  obtain rfl : i = 2 := h.only i (.stored moved) (by simp [hafter])
  exact ⟨after, before, s, h, hshows h.returned⟩

/-- A cluster that was removed comes back, and one that has moved is sent back. -/
theorem stale_list_wins :
    (∃ after before s, Ended (.removed newcomer) after before s ∧
      s.crew.world.connections.find? "west" ≠ none) ∧
    ∃ after before s x, Ended (.stored moved) after before s ∧
      s.crew.world.connections.find? "west" = some x ∧
      x.apiEndpoint ≠ moved.spec.apiEndpoint := by
  obtain ⟨⟨after, before, s, h, hfind⟩, after', before', s', h', hfind'⟩ := ended_runs
  refine ⟨⟨after, before, s, h, ?_⟩, after', before', s', newcomerConnection, h', hfind', ?_⟩
  · rw [hfind]
    exact nofun
  · decide

end ClusterFleet.Registration
