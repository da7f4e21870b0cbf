namespace ClusterFleet

/-- Finite maps with text keys, kept in order of the keys. -/
abbrev Table (α : Type) := List (String × α)

namespace Table

def find? (key : String) (t : Table α) : Option α := List.lookup key t

def insert (key : String) (value : α) : Table α → Table α
  | [] => [(key, value)]
  | (k, v) :: rest =>
    if key = k then (key, value) :: rest
    else if key < k then (key, value) :: (k, v) :: rest
    else (k, v) :: insert key value rest

def erase (key : String) (t : Table α) : Table α := t.filter (·.1 ≠ key)

def keys (t : Table α) : List String := t.map (·.1)

def values (t : Table α) : List α := t.map (·.2)

/-- The entries of `s` over those of `t`. -/
def union (s t : Table α) : Table α := s.foldl (fun t (k, v) => t.insert k v) t

def ofList (entries : List (String × α)) : Table α := union entries []

theorem find?_insert_self (key : String) (value : α) (t : Table α) :
    (t.insert key value).find? key = some value := by
  induction t with
  | nil => simp [insert, find?]
  | cons e rest ih =>
    obtain ⟨k, v⟩ := e
    simp only [insert]
    split
    · simp [find?]
    · next h =>
      split
      · simp [find?]
      · have : (key == k) = false := by simpa using h
        simpa [find?, List.lookup_cons, this] using ih

theorem find?_insert_of_ne {key other : String} (h : other ≠ key) (value : α) (t : Table α) :
    (t.insert key value).find? other = t.find? other := by
  have ho : (other == key) = false := by simpa using h
  induction t with
  | nil => simp [insert, find?, List.lookup_cons, ho]
  | cons e rest ih =>
    obtain ⟨k, v⟩ := e
    simp only [insert]
    split
    · next hk => subst hk; simp [find?, List.lookup_cons, ho]
    · split
      · simp [find?, List.lookup_cons, ho]
      · simp only [find?, List.lookup_cons] at ih ⊢
        split
        · rfl
        · exact ih

theorem find?_erase_self (key : String) (t : Table α) : (t.erase key).find? key = none := by
  simp only [find?, erase, List.lookup_eq_none_iff, List.mem_filter]
  intro p hp
  have h : p.1 ≠ key := by simpa using hp.2
  exact bne_iff_ne.2 h.symm

theorem find?_erase_of_ne {key other : String} (h : other ≠ key) (t : Table α) :
    (t.erase key).find? other = t.find? other := by
  induction t with
  | nil => rfl
  | cons e rest ih =>
    obtain ⟨k, v⟩ := e
    by_cases hk : k = key
    · subst hk
      have ho : (other == k) = false := by simpa using h
      simpa [find?, erase, List.lookup_cons, ho] using ih
    · simp only [find?, erase, List.lookup_cons] at ih ⊢
      simp only [hk, ne_eq, not_false_eq_true, decide_true, List.filter_cons_of_pos,
        List.lookup_cons]
      split
      · rfl
      · exact ih

theorem mem_insert {key : String} {value : α} {t : Table α} {e : String × α}
    (h : e ∈ t.insert key value) : e = (key, value) ∨ e ∈ t := by
  induction t with
  | nil => exact .inl (List.mem_singleton.1 h)
  | cons e' rest ih =>
    obtain ⟨k, v⟩ := e'
    simp only [insert] at h
    split at h
    · exact (List.mem_cons.1 h).imp_right (List.mem_cons_of_mem _)
    · split at h
      · exact List.mem_cons.1 h
      · rcases List.mem_cons.1 h with rfl | h
        · exact .inr List.mem_cons_self
        · exact (ih h).imp_right (List.mem_cons_of_mem _)

theorem mem_keys_insert {key name : String} {value : α} {t : Table α} :
    name ∈ (t.insert key value).keys ↔ name = key ∨ name ∈ t.keys := by
  induction t with
  | nil => simp [insert, keys]
  | cons e rest ih =>
    obtain ⟨k, v⟩ := e
    simp only [keys] at ih
    simp only [insert]
    split
    · next hk => simp [keys, hk]
    · split
      · simp [keys]
      · simp only [keys, List.map_cons, List.mem_cons, ih]
        exact or_left_comm

theorem mem_keys_erase {key name : String} {t : Table α} :
    name ∈ (t.erase key).keys ↔ name ∈ t.keys ∧ name ≠ key := by
  simp only [keys, erase, List.mem_map, List.mem_filter, decide_eq_true_eq]
  constructor
  · rintro ⟨e, ⟨he, hne⟩, rfl⟩
    exact ⟨⟨e, he, rfl⟩, hne⟩
  · rintro ⟨⟨e, he, rfl⟩, hne⟩
    exact ⟨e, ⟨he, hne⟩, rfl⟩

theorem mem_of_find? {key : String} {value : α} {t : Table α} (h : t.find? key = some value) :
    (key, value) ∈ t := by
  obtain ⟨s, _, rfl, _⟩ := List.lookup_eq_some_iff.1 h
  simp

end Table
end ClusterFleet
