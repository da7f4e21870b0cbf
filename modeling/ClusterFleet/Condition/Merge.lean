import ClusterFleet.Condition.Basic
import ClusterFleet.Time.Rfc3339

namespace ClusterFleet.Condition

/-- An observation at time `now` of an aspect that was last on record as `old`. -/
def replacing (old new : Condition) (now : String) : Condition :=
  { new with
    updated := some now
    transitioned := if old.verdict = new.verdict then old.transitioned <|> some now else some now }

def first (new : Condition) (now : String) : Condition :=
  { new with updated := some now, transitioned := some now }

/-- The first condition on the same aspect is replaced where it stands. -/
def record (now : String) (new : Condition) : List Condition → List Condition
  | [] => [first new now]
  | old :: rest =>
    if old.aspect = new.aspect then replacing old new now :: rest
    else old :: record now new rest

def recordAll (now : String) (known observed : List Condition) : List Condition :=
  observed.foldl (fun cs c => record now c cs) known

/-- An aspect keeps its transition time while its verdict stays the same; aspects that were not
observed stay as they are. -/
def merge (known observed : List Condition) (now : Instant) : List Condition :=
  recordAll (Time.rfc3339 now) known observed

/-- What is on record for an aspect after an observation, from what was. -/
def renewed (new : Condition) (now : String) : Option Condition → Condition
  | some old => replacing old new now
  | none => first new now

@[simp] theorem aspect_renewed (new : Condition) (now : String) (old : Option Condition) :
    (renewed new now old).aspect = new.aspect := by
  cases old <;> rfl

theorem find?_cons_self (c : Condition) (cs : List Condition) :
    find? c.aspect (c :: cs) = some c := by
  simp [find?]

theorem find?_cons_of_ne {a : Aspect} {c : Condition} (h : c.aspect ≠ a) (cs : List Condition) :
    find? a (c :: cs) = find? a cs := by
  simp [find?, h]

theorem find?_record_self (now : String) (new : Condition) (cs : List Condition) :
    find? new.aspect (record now new cs) = some (renewed new now (find? new.aspect cs)) := by
  induction cs with
  | nil => exact find?_cons_self (first new now) []
  | cons old rest ih =>
    by_cases h : old.aspect = new.aspect
    · have hold : find? new.aspect (old :: rest) = some old := h ▸ find?_cons_self old rest
      rw [hold]
      simp only [record, if_pos h]
      exact find?_cons_self (replacing old new now) rest
    · simp only [record, if_neg h]
      rw [find?_cons_of_ne h, find?_cons_of_ne h, ih]

theorem find?_record_of_ne {a : Aspect} {new : Condition} (h : new.aspect ≠ a) (now : String)
    (cs : List Condition) : find? a (record now new cs) = find? a cs := by
  induction cs with
  | nil => exact find?_cons_of_ne (c := first new now) h []
  | cons old rest ih =>
    by_cases ho : old.aspect = new.aspect
    · simp only [record, if_pos ho]
      rw [find?_cons_of_ne (c := replacing old new now) h, find?_cons_of_ne (ho ▸ h)]
    · simp only [record, if_neg ho]
      by_cases ha : old.aspect = a
      · subst ha
        rw [find?_cons_self, find?_cons_self]
      · rw [find?_cons_of_ne ha, find?_cons_of_ne ha, ih]

theorem find?_record (now : String) (new : Condition) (a : Aspect) (cs : List Condition) :
    find? a (record now new cs) =
      if new.aspect = a then some (renewed new now (find? a cs)) else find? a cs := by
  split
  · next h => rw [← h, find?_record_self]
  · next h => exact find?_record_of_ne h now cs

theorem map_aspect_record (now : String) (new : Condition) (cs : List Condition) :
    (record now new cs).map (·.aspect) =
      if new.aspect ∈ cs.map (·.aspect) then cs.map (·.aspect)
      else cs.map (·.aspect) ++ [new.aspect] := by
  induction cs with
  | nil => rfl
  | cons old rest ih =>
    by_cases h : old.aspect = new.aspect
    · simp [record, h, replacing]
    · have hne : new.aspect ≠ old.aspect := fun he => h he.symm
      simp only [record, if_neg h, List.map_cons, ih, List.mem_cons, hne, false_or]
      split <;> rfl

/-- Each aspect is on record once. -/
def Distinct (cs : List Condition) : Prop := (cs.map (·.aspect)).Nodup

instance (cs : List Condition) : Decidable (Distinct cs) :=
  inferInstanceAs (Decidable (List.Nodup _))

theorem Distinct.record {cs : List Condition} (h : Distinct cs) (now : String) (new : Condition) :
    Distinct (record now new cs) := by
  unfold Distinct
  rw [map_aspect_record]
  split
  · exact h
  · next hnew =>
    rw [List.nodup_append]
    refine ⟨h, List.nodup_cons.2 ⟨List.not_mem_nil, List.nodup_nil⟩, ?_⟩
    intro a ha b hb hab
    rw [List.mem_singleton] at hb
    exact hnew (hb ▸ hab ▸ ha)

theorem Distinct.filter {cs : List Condition} (h : Distinct cs) (p : Condition → Bool) :
    Distinct (cs.filter p) :=
  h.sublist (List.filter_sublist.map _)

theorem Distinct.mem_iff_find? {cs : List Condition} (h : Distinct cs) (c : Condition) :
    c ∈ cs ↔ find? c.aspect cs = some c := by
  constructor
  · intro hc
    induction cs with
    | nil => cases hc
    | cons old rest ih =>
      obtain ⟨hold, hrest⟩ := List.nodup_cons.1 h
      rcases List.mem_cons.1 hc with rfl | hc
      · exact find?_cons_self _ _
      · have hne : old.aspect ≠ c.aspect := by
          intro he
          exact hold (List.mem_map.2 ⟨c, hc, he.symm⟩)
        rw [find?_cons_of_ne hne]
        exact ih hrest hc
  · exact fun hc => List.mem_of_find?_eq_some hc

end ClusterFleet.Condition
