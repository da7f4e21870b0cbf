import Mathlib.Data.List.Basic

namespace ClusterFleet

namespace Latch

inductive Mode where
  | shared
  | exclusive
  deriving DecidableEq

end Latch

/-- Tasks, each with the mode in which it comes in. -/
structure Latch where
  holders : List (Nat × Latch.Mode) := []
  queue : List (Nat × Latch.Mode) := []

namespace Latch

def admits (holders : List (Nat × Mode)) (m : Mode) : Bool :=
  holders.all fun h => h.2 = .shared && m = .shared

/-- Whoever comes now gets in. -/
def IsOpen (l : Latch) (m : Mode) : Prop := l.queue = [] ∧ admits l.holders m

instance (l : Latch) (m : Mode) : Decidable (l.IsOpen m) :=
  inferInstanceAs (Decidable (l.queue = [] ∧ admits l.holders m))

def enter (l : Latch) (i : Nat) (m : Mode) : Latch :=
  if l.IsOpen m then { l with holders := (i, m) :: l.holders }
  else { l with queue := l.queue ++ [(i, m)] }

/-- Lets in those who wait, up to the first one who does not fit in. -/
def fill (holders : List (Nat × Mode)) : List (Nat × Mode) → Latch
  | [] => ⟨holders, []⟩
  | x :: queue =>
    if admits holders x.2 then fill (x :: holders) queue else ⟨holders, x :: queue⟩

/-- A task goes out, or gives up its place in the queue. -/
def leave (l : Latch) (i : Nat) : Latch :=
  fill (l.holders.filter (·.1 ≠ i)) (l.queue.filter (·.1 ≠ i))

/-- It has come in, or it waits. -/
def Has (l : Latch) (x : Nat × Mode) : Prop := x ∈ l.holders ∨ x ∈ l.queue

instance (l : Latch) (x : Nat × Mode) : Decidable (l.Has x) :=
  inferInstanceAs (Decidable (x ∈ l.holders ∨ x ∈ l.queue))

/-- Whoever alters something is alone. -/
def Alone (holders : List (Nat × Mode)) : Prop :=
  ∀ x ∈ holders, x.2 = .exclusive → holders = [x]

structure WellFormed (l : Latch) : Prop where
  alone : Alone l.holders
  /-- The one who stands first does not fit in. -/
  settled : ∀ x ∈ l.queue.head?, admits l.holders x.2 = false

variable {l : Latch} {holders queue : List (Nat × Mode)} {x y : Nat × Mode} {i : Nat} {m : Mode}

theorem wellFormed_idle : WellFormed {} := ⟨nofun, nofun⟩

theorem Alone.cons (ha : admits holders x.2) : Alone (x :: holders) := by
  intro y hy he
  cases holders with
  | nil => rw [List.mem_singleton.1 hy]
  | cons z holders =>
    -- Somebody is in already, so that all of them only look.
    have hall : ∀ h ∈ z :: holders, h.2 = .shared ∧ x.2 = .shared := by
      simpa only [admits, List.all_eq_true, Bool.and_eq_true, decide_eq_true_eq] using ha
    have hshared : y.2 = .shared := by
      rcases List.mem_cons.1 hy with rfl | hy
      · exact (hall z List.mem_cons_self).2
      · exact (hall y hy).1
    rw [hshared] at he
    cases he

theorem Alone.filter (h : Alone holders) (p : Nat × Mode → Bool) : Alone (holders.filter p) := by
  intro x hx he
  obtain ⟨hmem, hp⟩ := List.mem_filter.1 hx
  rw [h x hmem he, List.filter_singleton, hp, cond_true]

theorem WellFormed.fill (h : Alone holders) (queue : List (Nat × Mode)) :
    (fill holders queue).WellFormed := by
  induction queue generalizing holders with
  | nil => exact ⟨h, nofun⟩
  | cons x queue ih =>
    by_cases ha : admits holders x.2
    · rw [Latch.fill, if_pos ha]
      exact ih (.cons ha)
    · rw [Latch.fill, if_neg ha]
      refine ⟨h, ?_⟩
      rintro y ⟨⟩
      exact Bool.eq_false_iff.2 ha

theorem WellFormed.leave (h : l.WellFormed) (i : Nat) : (l.leave i).WellFormed :=
  .fill (h.alone.filter _) _

theorem WellFormed.enter (h : l.WellFormed) (i : Nat) (m : Mode) : (l.enter i m).WellFormed := by
  unfold Latch.enter
  split
  · next ho =>
    refine ⟨.cons ho.2, ?_⟩
    rw [ho.1]
    nofun
  · next hc =>
    refine ⟨h.alone, ?_⟩
    cases hq : l.queue with
    | nil =>
      rintro y ⟨⟩
      exact Bool.eq_false_iff.2 fun ha => hc ⟨hq, ha⟩
    | cons z queue =>
      rintro y ⟨⟩
      exact h.settled z (by simp [hq])

theorem WellFormed.exists_holder (h : l.WellFormed) (hc : ¬l.IsOpen m) : ∃ x, x ∈ l.holders := by
  cases hh : l.holders with
  | cons x holders => exact ⟨x, List.mem_cons_self⟩
  | nil =>
    refine absurd ⟨?_, by rw [hh]; rfl⟩ hc
    cases hq : l.queue with
    | nil => rfl
    | cons z queue =>
      have hz := h.settled z (by simp [hq])
      rw [hh] at hz
      cases hz

theorem has_enter : (l.enter i m).Has y ↔ l.Has y ∨ y = (i, m) := by
  unfold enter
  split
  · simp only [Has, List.mem_cons, or_assoc]
    rw [or_comm, or_assoc]
  · simp only [Has, List.mem_append, List.mem_singleton, or_assoc]

theorem has_fill : (fill holders queue).Has y ↔ y ∈ holders ∨ y ∈ queue := by
  induction queue generalizing holders with
  | nil => rfl
  | cons x queue ih =>
    unfold fill
    split
    · rw [ih, List.mem_cons, List.mem_cons, or_assoc, or_left_comm]
    · rfl

theorem has_leave : (l.leave i).Has y ↔ l.Has y ∧ y.1 ≠ i := by
  rw [leave, has_fill, List.mem_filter, List.mem_filter, decide_eq_true_eq, Has, or_and_right]

end Latch

end ClusterFleet
