import ClusterFleet.Proofs.Registration.Reuse
import ClusterFleet.Registration.Watch

namespace ClusterFleet.Registration

/--
How one world comes from another as notices are handled, the latest of them first. In between,
anything outside the cache may change, such as the secrets.
-/
inductive Follows (settings : RegistrationSettings) (w₀ : World) : List Notice → World → Prop where
  | here : Follows settings w₀ [] w₀
  | handles {w : World} {ns : List Notice} (n : Notice) :
    Follows settings w₀ ns w → Follows settings w₀ (n :: ns) ((handle settings n).run w).2
  | changes {w w' : World} {ns : List Notice} :
    w'.connections = w.connections → Follows settings w₀ ns w → Follows settings w₀ ns w'

/-- The latest notice of the name tells of a descriptor that there is. -/
def Stands (name : String) : List Notice → Prop
  | [] => False
  | .listed d :: ns | .applied d :: ns => d.name = name ∨ Stands name ns
  | .deleted d :: ns => d.name ≠ name ∧ Stands name ns
  | _ :: ns => Stands name ns

def Told (name : String) (n : Notice) : Prop :=
  ∃ d, (n = .listed d ∨ n = .applied d) ∧ d.name = name

def Deleted (name : String) (ns : List Notice) : Prop := ∃ d, .deleted d ∈ ns ∧ d.name = name

section
variable {settings : RegistrationSettings} {w₀ w w' : World} {ns since before : List Notice}
  {n : Notice} {d : Descriptor} {name : String}

theorem Follows.trans (h : Follows settings w₀ before w) (h' : Follows settings w since w') :
    Follows settings w₀ (since ++ before) w' := by
  induction h' with
  | here => exact h
  | handles n _ ih => exact .handles n ih
  | changes hc _ ih => exact .changes hc ih

theorem Follows.cut (h : Follows settings w₀ (since ++ before) w') :
    ∃ w, Follows settings w₀ before w ∧ Follows settings w since w' := by
  generalize hns : since ++ before = ns at h
  induction h generalizing since with
  | here =>
    obtain ⟨rfl, rfl⟩ := List.append_eq_nil_iff.1 hns
    exact ⟨w₀, .here, .here⟩
  | @handles w ns n h ih =>
    cases since with
    | nil =>
      have hb : before = n :: ns := hns
      exact ⟨_, hb ▸ .handles n h, .here⟩
    | cons m since =>
      obtain ⟨rfl, hrest⟩ := List.cons.inj hns
      obtain ⟨w, hb, hs⟩ := ih hrest
      exact ⟨w, hb, .handles m hs⟩
  | changes hc h ih =>
    obtain ⟨w, hb, hs⟩ := ih hns
    exact ⟨w, hb, .changes hc hs⟩

theorem stands_cons_iff :
    Stands name (n :: ns) ↔ Told name n ∨ Stands name ns ∧ ¬Deleted name [n] := by
  cases n <;> simp [Stands, Told, Deleted, and_comm]

theorem deleted_cons_iff : Deleted name (n :: ns) ↔ Deleted name [n] ∨ Deleted name ns := by
  simp [Deleted, or_and_right, exists_or]

theorem discard_run {α : Type} (p : Program α) (w : World) :
    (p >>= fun _ => pure ()).run w = ((p.run w).1.map fun _ => (), (p.run w).2) := by
  simp only [Program.run, Program.runBy_bind]
  cases p.runBy World.perform w with
  | mk r w' => cases r <;> rfl

theorem handle_run_cases (settings : RegistrationSettings) (n : Notice) (w : World) :
    (∃ d, (n = .listed d ∨ n = .applied d) ∧
      ((handle settings n).run w).2 = ((register settings d).run w).2) ∨
    (∃ d, n = .deleted d ∧ ((handle settings n).run w).2 = ((unregister d.name).run w).2) ∨
    ((∀ d, n ≠ .listed d ∧ n ≠ .applied d ∧ n ≠ .deleted d) ∧
      ((handle settings n).run w).2 = w) := by
  cases n with
  | listed d => exact .inl ⟨d, .inl rfl, congrArg Prod.snd (discard_run _ w)⟩
  | applied d => exact .inl ⟨d, .inr rfl, congrArg Prod.snd (discard_run _ w)⟩
  | deleted d => exact .inr (.inl ⟨d, rfl, rfl⟩)
  | _ => exact .inr (.inr ⟨fun _ => ⟨nofun, nofun, nofun⟩, rfl⟩)

theorem connections_register (h : Filed w.connections) (d : Descriptor) :
    ((register settings d).run w).2.connections = w.connections ∨
      ∃ c, ((register settings d).run w).2.connections = w.connections.insert d.name c := by
  cases hr : reusable settings d w with
  | some c =>
    have hn : c.name = d.name := h.find? (Option.filter_eq_some_iff.1 hr).1
    rw [register_run_of_reusable hn hr]
    exact .inr ⟨_, rfl⟩
  | none =>
    cases hf : first? settings d w with
    | none => exact .inl (connections_register_of_first hr hf)
    | some p =>
      obtain ⟨w', hrun, hc⟩ := register_run_of_first hr hf
      rw [hrun]
      exact .inr ⟨p, hc⟩

theorem mem_keys_handle (h : Filed w.connections)
    (hn : name ∈ ((handle settings n).run w).2.connections.keys) :
    Told name n ∨ name ∈ w.connections.keys ∧ ¬Deleted name [n] := by
  rcases handle_run_cases settings n w with ⟨d, hd, hw⟩ | ⟨d, rfl, hw⟩ | ⟨hd, hw⟩ <;> rw [hw] at hn
  · have hkeep : ¬Deleted name [n] := by rcases hd with rfl | rfl <;> simp [Deleted]
    rcases connections_register h d with hc | ⟨c, hc⟩ <;> rw [hc] at hn
    · exact .inr ⟨hn, hkeep⟩
    · rcases Table.mem_keys_insert.1 hn with rfl | hn
      · exact .inl ⟨d, hd, rfl⟩
      · exact .inr ⟨hn, hkeep⟩
  · obtain ⟨hn, hne⟩ := Table.mem_keys_erase.1 hn
    refine .inr ⟨hn, ?_⟩
    simpa [Deleted] using hne.symm
  · refine .inr ⟨hn, ?_⟩
    rintro ⟨d, hm, _⟩
    exact (hd d).2.2 (List.mem_singleton.1 hm).symm

theorem mem_keys_handle_of_mem (h : Filed w.connections) (hn : name ∈ w.connections.keys)
    (hkeep : ¬Deleted name [n]) : name ∈ ((handle settings n).run w).2.connections.keys := by
  rcases handle_run_cases settings n w with ⟨d, _, hw⟩ | ⟨d, rfl, hw⟩ | ⟨_, hw⟩ <;> rw [hw]
  · rcases connections_register h d with hc | ⟨c, hc⟩ <;> rw [hc]
    · exact hn
    · exact Table.mem_keys_insert.2 (.inr hn)
  · have hne : d.name ≠ name := by simpa [Deleted] using hkeep
    exact Table.mem_keys_erase.2 ⟨hn, hne.symm⟩
  · exact hn

theorem Follows.filed (hf : Filed w₀.connections) (h : Follows settings w₀ ns w) :
    Filed w.connections := by
  induction h with
  | here => exact hf
  | handles n _ ih => exact World.filed_run ih (handle settings n)
  | changes hc _ ih => exact hc ▸ ih

theorem Follows.mem_keys (hf : Filed w.connections) (h : Follows settings w since w')
    (hn : name ∈ w'.connections.keys) :
    Stands name since ∨ name ∈ w.connections.keys ∧ ¬Deleted name since := by
  induction h with
  | here => exact .inr ⟨hn, fun ⟨d, hd, _⟩ => List.not_mem_nil hd⟩
  | changes hc _ ih => exact ih (hc ▸ hn)
  | @handles w₁ ns n h ih =>
    rcases mem_keys_handle (h.filed hf) hn with ht | ⟨hn, hkeep⟩
    · exact .inl (stands_cons_iff.2 (.inl ht))
    · -- It was there before this notice, which does not delete it.
      rcases ih hn with hs | ⟨hn, hd⟩
      · exact .inl (stands_cons_iff.2 (.inr ⟨hs, hkeep⟩))
      · exact .inr ⟨hn, fun h => (deleted_cons_iff.1 h).elim hkeep hd⟩

theorem Follows.mem_keys_of_mem (hf : Filed w.connections) (h : Follows settings w since w')
    (hn : name ∈ w.connections.keys)
    (hd : ¬Deleted name since) : name ∈ w'.connections.keys := by
  induction h with
  | here => exact hn
  | changes hc _ ih =>
    rw [hc]
    exact ih hd
  | @handles w₁ ns n h ih =>
    have hns : ¬Deleted name ns := fun h' => hd (deleted_cons_iff.2 (.inr h'))
    have hkeep : ¬Deleted name [n] := fun h' => hd (deleted_cons_iff.2 (.inl h'))
    exact mem_keys_handle_of_mem (h.filed hf) (ih hns) hkeep

/--
Names in the cache after a listing and all that followed it. They stand by all the notices there
were. They stand by those since the listing began exactly when this holds of each name that was
there as it began, unless it was deleted since.
-/
theorem keys_follow_listing (hempty : w₀.connections = [])
    (h : Follows settings w₀ (since ++ .listingBegins :: before) w') :
    (∀ name ∈ w'.connections.keys, Stands name (since ++ .listingBegins :: before)) ∧
    ∃ w, Follows settings w₀ (.listingBegins :: before) w ∧ Follows settings w since w' ∧
      ((∀ name ∈ w'.connections.keys, Stands name since) ↔
        ∀ name ∈ w.connections.keys, Stands name since ∨ Deleted name since) := by
  have hf : Filed w₀.connections := hempty ▸ filed_nil
  refine ⟨?_, ?_⟩
  · intro name hn
    rcases h.mem_keys hf hn with hs | ⟨hn, _⟩
    · exact hs
    · rw [hempty] at hn
      cases hn
  · obtain ⟨w, hb, hs⟩ := h.cut
    refine ⟨w, hb, hs, ?_, ?_⟩
    · intro hall name hn
      by_cases hd : Deleted name since
      · exact .inr hd
      · exact .inl (hall name (hs.mem_keys_of_mem (hb.filed hf) hn hd))
    · intro hall name hn
      rcases hs.mem_keys (hb.filed hf) hn with hst | ⟨hn, hd⟩
      · exact hst
      · exact (hall name hn).resolve_right hd

end

theorem follows_vanished : Follows {} (vault "first") [.listingBegins, .applied newcomer]
    ((handle {} (.applied newcomer)).run (vault "first")).2 :=
  .handles .listingBegins (.handles (.applied newcomer) .here)

theorem keys_follow_vanished :
    Follows {} (vault "first") ([.listingEnds] ++ .listingBegins :: [.applied newcomer])
      ((handle {} (.applied newcomer)).run (vault "first")).2 ∧
    ∃ w, Follows {} w [.listingEnds] ((handle {} (.applied newcomer)).run (vault "first")).2 ∧
      ((∀ name ∈ ((handle {} (.applied newcomer)).run (vault "first")).2.connections.keys,
          Stands name [.listingEnds]) ↔
        ∀ name ∈ w.connections.keys, Stands name [.listingEnds] ∨ Deleted name [.listingEnds]) := by
  have h : Follows {} (vault "first") ([.listingEnds] ++ .listingBegins :: [.applied newcomer])
      ((handle {} (.applied newcomer)).run (vault "first")).2 :=
    .handles .listingEnds follows_vanished
  obtain ⟨_, w, _, hs, hiff⟩ := keys_follow_listing rfl h
  exact ⟨h, w, hs, hiff⟩

/-- It stays in the cache, though the listing did not tell of it. -/
theorem not_stands_vanished : (vault "first").connections = [] ∧
    Follows {} (vault "first") [.listingEnds, .listingBegins, .applied newcomer]
      ((handle {} (.applied newcomer)).run (vault "first")).2 ∧
    "west" ∈ ((handle {} (.applied newcomer)).run (vault "first")).2.connections.keys ∧
    ¬Stands "west" [.listingEnds] :=
  ⟨rfl, .handles .listingEnds follows_vanished, List.mem_cons_self, id⟩

end ClusterFleet.Registration
