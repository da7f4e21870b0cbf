import ClusterFleet.Table
import Mathlib.Data.List.Nodup
import Mathlib.Data.String.Basic

namespace ClusterFleet.Table

section
variable {α : Type} {t : Table α} {key : String} {value : α}

def Ordered (t : Table α) : Prop := t.keys.Pairwise (· < ·)

theorem Ordered.nodup (h : t.Ordered) : t.keys.Nodup := h.imp fun hlt => ne_of_lt hlt

theorem Ordered.insert (h : t.Ordered) (key : String) (value : α) :
    (t.insert key value).Ordered := by
  induction t with
  | nil => exact List.pairwise_singleton ..
  | cons e rest ih =>
    obtain ⟨k, v⟩ := e
    obtain ⟨hk, hrest⟩ := List.pairwise_cons.1 h
    simp only [Table.insert]
    split
    · next heq =>
      subst heq
      exact h
    · next hne =>
      split
      · next hlt =>
        refine List.pairwise_cons.2 ⟨?_, h⟩
        intro x hx
        rcases List.mem_cons.1 hx with rfl | hx
        · exact hlt
        · exact hlt.trans (hk x hx)
      · next hge =>
        refine List.pairwise_cons.2 ⟨?_, ih hrest⟩
        intro x hx
        rcases mem_keys_insert.1 hx with rfl | hx
        · exact lt_of_le_of_ne (not_lt.1 hge) (Ne.symm hne)
        · exact hk x hx

theorem Ordered.erase (h : t.Ordered) (key : String) : (t.erase key).Ordered :=
  List.Pairwise.sublist (List.filter_sublist.map _) h

theorem mem_iff_find? (h : t.keys.Nodup) : (key, value) ∈ t ↔ t.find? key = some value := by
  constructor
  · intro hm
    obtain ⟨front, back, rfl⟩ := List.append_of_mem hm
    refine List.lookup_eq_some_iff.2 ⟨front, back, rfl, ?_⟩
    -- The key stands in the middle, and nowhere before it.
    intro e he
    rw [keys, List.map_append, List.map_cons] at h
    have hne := (List.nodup_append.1 h).2.2 e.1 (List.mem_map_of_mem he) key List.mem_cons_self
    exact bne_iff_ne.2 hne.symm
  · exact mem_of_find?

end

section
variable {α β : Type} (f : α → β)

def mapValues (t : Table α) : Table β := t.map fun e => (e.1, f e.2)

theorem mapValues_insert (key : String) (value : α) (t : Table α) :
    mapValues f (t.insert key value) = (mapValues f t).insert key (f value) := by
  induction t with
  | nil => rfl
  | cons e rest ih =>
    obtain ⟨k, v⟩ := e
    simp only [mapValues, insert, List.map_cons] at ih ⊢
    split
    · rfl
    · split
      · rfl
      · rw [List.map_cons, ih]

theorem mapValues_erase (key : String) (t : Table α) :
    mapValues f (t.erase key) = (mapValues f t).erase key := by
  simp [mapValues, erase, List.filter_map, Function.comp_def]

theorem find?_mapValues (key : String) (t : Table α) :
    (mapValues f t).find? key = (t.find? key).map f := by
  induction t with
  | nil => rfl
  | cons e rest ih =>
    obtain ⟨k, v⟩ := e
    simp only [mapValues, find?, List.map_cons, List.lookup_cons] at ih ⊢
    split
    · rfl
    · exact ih

theorem values_mapValues (t : Table α) : (mapValues f t).values = t.values.map f := by
  simp [mapValues, values]

end

/-- The tables have the same keys, and values that belong together. -/
inductive Matches {α β : Type} (R : String → α → β → Prop) : Table α → Table β → Prop
  | nil : Matches R [] []
  | cons {key : String} {a : α} {b : β} {t : Table α} {u : Table β} (h : R key a b)
    (rest : Matches R t u) : Matches R ((key, a) :: t) ((key, b) :: u)

section
variable {α β : Type} {R : String → α → β → Prop} {t : Table α} {u : Table β} {key : String}
  {a : α} {b : β}

theorem Matches.insert (h : Matches R t u) (hab : R key a b) :
    Matches R (t.insert key a) (u.insert key b) := by
  induction h with
  | nil => exact .cons hab .nil
  | cons hk rest ih =>
    simp only [Table.insert]
    split
    · exact .cons hab rest
    · split
      · exact .cons hab (.cons hk rest)
      · exact .cons hk ih

theorem Matches.erase (h : Matches R t u) (key : String) :
    Matches R (t.erase key) (u.erase key) := by
  induction h with
  | nil => exact .nil
  | cons hk rest ih =>
    simp only [Table.erase, List.filter_cons] at ih ⊢
    split
    · exact .cons hk ih
    · exact ih

theorem Matches.find? (h : Matches R t u) (key : String) :
    (t.find? key = none ∧ u.find? key = none) ∨
      ∃ a b, t.find? key = some a ∧ u.find? key = some b ∧ R key a b := by
  induction h with
  | nil => exact .inl ⟨rfl, rfl⟩
  | @cons k a b t u hk rest ih =>
    simp only [Table.find?, List.lookup_cons] at ih ⊢
    cases he : key == k with
    | true => exact .inr ⟨a, b, rfl, rfl, eq_of_beq he ▸ hk⟩
    | false => exact ih

theorem Matches.of_mem (h : Matches R t u) (ha : (key, a) ∈ t) : ∃ b, R key a b := by
  induction h with
  | nil => cases ha
  | @cons k a b t u hk rest ih =>
    rcases List.mem_cons.1 ha with he | ha
    · cases he
      exact ⟨b, hk⟩
    · exact ih ha

end

end ClusterFleet.Table
