import ClusterFleet.Proofs.Registration.Coherence

namespace ClusterFleet

/-- Whether it decides what the cache holds under a name. -/
def Action.touches (name : String) : Action → Bool
  | .insert c => c.name = name
  | .erase n => n = name
  | .clear => true
  | _ => false

def Action.left? : Action → Option Connection
  | .insert c => some c
  | _ => none

def Event.touches {κ : Type} (name : String) : Event κ → Bool
  | .acted _ a _ => a.touches name
  | _ => false

namespace Crew

variable {κ ρ : Type} {work : κ → Program ρ} {s s' start : Crew κ ρ} {e : Event κ}
  {log : List (Event κ)} {name : String}

theorem find?_step (h : Step work s e s') : s'.world.connections.find? name = match e with
    | .acted _ a _ => if a.touches name then a.left? else s.world.connections.find? name
    | _ => s.world.connections.find? name := by
  cases h with
  | begins => rfl
  | @acts i k a next r w ht hw =>
    simp only [world_put, hw.sameCache.connections, World.connections_step]
    cases a with
    | insert c =>
      by_cases hc : c.name = name
      · subst hc
        simp [Action.touches, Action.left?, Table.find?_insert_self]
      · simp [Action.touches, hc, Table.find?_insert_of_ne (Ne.symm hc)]
    | erase n =>
      by_cases hn : n = name
      · subst hn
        simp [Action.touches, Action.left?, Table.find?_erase_self]
      · simp [Action.touches, hn, Table.find?_erase_of_ne (Ne.symm hn)]
    | _ => rfl
  | waits ht hw =>
    obtain ⟨_, rfl⟩ := World.eq_takeTurn_of_step hw
    rfl
  | drops => rfl

/-- The latest action on a name decides what the cache holds under it. -/
theorem find?_of_run {i : Nat} {a : Action} {r : a.Reply} {later : List (Event κ)}
    (h : Run work start (later ++ .acted i a r :: log) s) (ha : a.touches name)
    (hlater : ∀ e ∈ later, e.touches name = false) :
    s.world.connections.find? name = a.left? := by
  induction later generalizing s with
  | nil =>
    cases h with
    | step _ hs =>
      rw [find?_step hs]
      exact if_pos ha
  | cons e later ih =>
    obtain ⟨he, hlater⟩ := List.forall_mem_cons.1 hlater
    cases h with
    | step h hs =>
      rw [find?_step hs, ← ih h hlater]
      cases e with
      | acted j b r =>
        have hb : b.touches name = false := he
        simp [hb]
      | _ => rfl

end Crew

namespace Registration

/-- The program cannot come to such a result without an action that is due. -/
def Owes {ρ : Type} (due : Action → Prop) (result : ρ → Prop) : Program ρ → Prop
  | .done v => ¬result v
  | .crash => True
  | .call a next => due a ∨ ∀ r, Owes due result (next r)

theorem owes_of_never {ρ : Type} {due : Action → Prop} {result : ρ → Prop} (h : ∀ v, ¬result v)
    (p : Program ρ) : Owes due result p := by
  induction p with
  | done v => exact h v
  | crash => trivial
  | call a next ih => exact .inr ih

theorem acted_of_run {κ ρ : Type} {work : κ → Program ρ} {w : World} {s : Crew κ ρ}
    {log : List (Event κ)} {due : κ → Action → Prop} {result : κ → ρ → Prop}
    (hwork : ∀ k, Owes (due k) (result k) (work k)) (h : Crew.Run work (.idle w) log s) {i : Nat}
    {t : Task κ ρ} (ht : s.tasks i = some t) :
    (∃ a r, .acted i a r ∈ log ∧ due t.call a) ∨ Owes (due t.call) (result t.call) t.rest := by
  induction h generalizing t with
  | here => cases ht
  | @step s s' e log h hs ih =>
    have hlog : ∀ {t : Task κ ρ}, s.tasks i = some t →
        (∃ a r, .acted i a r ∈ e :: log ∧ due t.call a) ∨
          Owes (due t.call) (result t.call) t.rest := by
      intro t ht
      refine (ih ht).imp_left ?_
      rintro ⟨a, r, ha, hd⟩
      exact ⟨a, r, List.mem_cons_of_mem _ ha, hd⟩
    cases hs.moved ht with
    | begun k _ => exact .inr (hwork k)
    | @acted k a next r w hi _ =>
      rcases hlog hi with hdone | howes
      · exact .inl hdone
      · -- What is owed is done by this very action, or it is owed whatever the reply.
        rcases howes with hdue | hnext
        · exact .inl ⟨a, r, List.mem_cons_self, hdue⟩
        · exact .inr (hnext r)
    | waited hi | beside _ hi => exact hlog hi
    | dropped hi => exact .inr trivial

def Call.attempt (settings : RegistrationSettings) :
    Call → Program (Except RegistrationError Unit)
  | .register d => Registration.register settings d
  | k => do
    k.program settings
    return .ok ()

def Call.isUpkeep : Call → Bool
  | .register _ | .unregister _ => true
  | _ => false

/-- What such a call does in the end. -/
def Call.Settles : Call → Action → Prop
  | .register _, .insert _ => True
  | .unregister name, a => a = .erase name
  | _, _ => False

theorem owes_register (settings : RegistrationSettings) (d : Descriptor) :
    Owes (Call.Settles (.register d)) (· = .ok ()) (register settings d) := by
  have hrefused : ∀ e : RegistrationError, ¬Except.error e = Except.ok () := by
    intro e he
    cases he
  have hconnect : Owes (Call.Settles (.register d)) (· = .ok ()) (connect settings d) := by
    unfold connect resolve
    split
    · exact hrefused _
    · refine .inr fun data => ?_
      rcases data with e | data
      · exact hrefused _
      · cases hf : fromSecret settings d data with
        | error e =>
          simp only [Program.bind, pure, hf]
          exact hrefused _
        | ok config =>
          simp only [Program.bind, pure, hf]
          refine .inr fun built => ?_
          cases built with
          | crashed => trivial
          | refused e => exact hrefused _
          | built client => exact .inl trivial
  refine .inr fun r => ?_
  cases r with
  | none => exact hconnect
  | some c =>
    simp only [Program.bind]
    split
    · exact .inl trivial
    · exact hconnect

theorem owes_attempt (settings : RegistrationSettings) (k : Call) :
    Owes k.Settles (fun v => k.isUpkeep ∧ v = .ok ()) (k.attempt settings) := by
  cases k with
  | register d => simpa [Call.isUpkeep, Call.attempt] using owes_register settings d
  | unregister name => exact .inl rfl
  | _ => exact owes_of_never (by simp [Call.isUpkeep]) _

def Listed (log : List (Event Call)) (i : Nat) (d : Descriptor) : Prop :=
  ∃ ds, .acted i .listClusters (.ok ds) ∈ log ∧ d ∈ ds

/-- What a call has to register. -/
def Source (log : List (Event Call)) (i : Nat) : Call → Descriptor → Prop
  | .register d', d => d = d'
  | .unregister _, _ => False
  | _, d => Listed log i d

/-- An action of a task that its call accounts for. -/
def Grounded (settings : RegistrationSettings) (log : List (Event Call)) (i : Nat) (k : Call) :
    Action → Prop
  | .insert c => ∃ d, Source log i k d ∧ Describes settings d c
  | .erase name => k = .unregister name
  | .clear => False
  | _ => True

section
variable {settings : RegistrationSettings} {log : List (Event Call)} {i : Nat} {k : Call}

def Described (settings : RegistrationSettings) (c : Connection) : Prop :=
  ∃ d, Describes settings d c

theorem opens_source : Opens settings (fun _ : Program (Except RegistrationError Unit) => True)
    (Rely settings log (Described settings) i) (Grounded settings log i k) (Source log i k) where
  other a ha _ := by
    cases a <;> trivial
  opened d token client hd hs _ _ _ := ⟨d, hd, describes_connection hs token client⟩
  kept d c hd hr ha := by
    obtain ⟨hn, _, hdesc⟩ := hr.2 c rfl
    exact ⟨d, hd, hdesc.of_agrees hn ha⟩

theorem allows_source (hk : Source log i k = Listed log i) :
    Allows settings (fun _ : Program (Except RegistrationError Unit) => True)
      (Rely settings log (Described settings) i) (Grounded settings log i k) (Listed log i)
      (Source log i k) where
  toOpens := opens_source
  lists := trivial
  listed ds hr _ hd := ⟨ds, hr.1, hd⟩
  stands _ _ hd _ := hk ▸ hd
  hook h hr := hr.2 h rfl

theorem upholds_attempt (settings : RegistrationSettings) (log : List (Event Call)) (i : Nat)
    (k : Call) : Upholds (fun _ => True) (Rely settings log (Described settings) i)
      (Grounded settings log i k) (k.attempt settings) := by
  cases k with
  | register d =>
    have hopens : Opens settings (fun _ : Program (Except RegistrationError Unit) => True)
        (Rely settings log (Described settings) i) (Grounded settings log i (.register d))
        (Source log i (.register d)) := opens_source
    have h := hopens.register (d := d) (k := pure) (fun _ => rfl) fun _ => trivial
    rwa [bind_pure] at h
  | unregister name => exact fun _ => ⟨rfl, fun _ _ => trivial⟩
  | refresh => exact (allows_source rfl).program .refresh nofun nofun fun _ => trivial
  | get name mayRefresh =>
    exact (allows_source rfl).program (.get name mayRefresh) nofun nofun fun _ => trivial
  | list filters => exact (allows_source rfl).program (.list filters) nofun nofun fun _ => trivial

end

section
variable {settings : RegistrationSettings} {w : World} {log later : List (Event Call)}
  {s : Crew Call (Except RegistrationError Unit)}

theorem kept_of_attempts (hempty : w.connections = [])
    (hhook : ∀ h, w.hook = some h → h = .reload settings)
    (h : Crew.Run (Call.attempt settings) (.idle w) log s) (hlater : log ⊆ later) :
    Kept settings (fun _ => True) (Described settings) (Grounded settings later) later s := by
  induction h with
  | here => exact kept_idle hempty hhook
  | step _ hs ih =>
    obtain ⟨he, hlog⟩ := List.cons_subset.1 hlater
    refine (ih hlog).step (upholds_attempt settings later) ?_ hs he fun _ _ _ => trivial
    rintro i k c ⟨d, _, hd⟩
    exact ⟨d, hd⟩

theorem grounded_of_attempts (hempty : w.connections = [])
    (hhook : ∀ h, w.hook = some h → h = .reload settings)
    (h : Crew.Run (Call.attempt settings) (.idle w) log s) (hlater : log ⊆ later) {i : Nat}
    {a : Action} {r : a.Reply} (ha : .acted i a r ∈ log) :
    ∃ t, s.tasks i = some t ∧ Grounded settings later i t.call a := by
  induction h with
  | here => cases ha
  | @step s s' e log h hs ih =>
    have hlog := (List.cons_subset.1 hlater).2
    rcases List.mem_cons.1 ha with rfl | ha
    · cases hs with
      | acts hi hw =>
        have hkept := kept_of_attempts hempty hhook h hlog
        exact ⟨_, Crew.tasks_put_self _ _ _ _, (hkept.tasks _ _ hi trivial).1⟩
    · obtain ⟨t, ht, hg⟩ := ih hlog ha
      obtain ⟨p, hp⟩ := hs.call ht
      exact ⟨_, hp, hg⟩

end

end Registration
end ClusterFleet
