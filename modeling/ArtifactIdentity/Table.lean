/-!
# Tables

A table is a list of keys with their values in the order in which the keys came first. Setting a key
changes its value in place, or adds the key at the end.
-/

namespace ArtifactIdentity.Table

variable {α β : Type} [BEq α]

/-- A table with the value of one key set. -/
def set (key : α) (value : β) : List (α × β) → List (α × β)
  | [] => [(key, value)]
  | (k, v) :: rest => if k == key then (k, value) :: rest else (k, v) :: set key value rest

def has (key : α) (table : List (α × β)) : Bool :=
  (table.lookup key).isSome

theorem lookup_cons_of_ne [LawfulBEq α] {key k : α} (h : key ≠ k) (v : β) (rest : List (α × β)) :
    ((k, v) :: rest).lookup key = rest.lookup key := by
  have : (key == k) = false := by simpa using h
  rw [List.lookup_cons, this]

theorem lookup_set_self [LawfulBEq α] (key : α) (value : β) (table : List (α × β)) :
    (set key value table).lookup key = some value := by
  induction table with
  | nil => simp [set]
  | cons e rest ih =>
    obtain ⟨k, v⟩ := e
    by_cases h : k = key
    · simp [set, h]
    · simp [set, h, lookup_cons_of_ne (Ne.symm h), ih]

theorem lookup_set_of_ne [LawfulBEq α] {key other : α} (h : other ≠ key) (value : β)
    (table : List (α × β)) : (set key value table).lookup other = table.lookup other := by
  induction table with
  | nil => simp [set, lookup_cons_of_ne h]
  | cons e rest ih =>
    obtain ⟨k, v⟩ := e
    by_cases hk : k = key
    · subst hk
      simp [set, lookup_cons_of_ne h]
    · simp only [set, beq_iff_eq, hk, if_false]
      by_cases ho : other = k
      · simp [ho]
      · rw [lookup_cons_of_ne ho, lookup_cons_of_ne ho, ih]

/-- What is looked up stands in the table. -/
theorem mem_of_lookup [LawfulBEq α] {key : α} {value : β} {table : List (α × β)}
    (h : table.lookup key = some value) : (key, value) ∈ table := by
  obtain ⟨before, after, rfl, -⟩ := List.lookup_eq_some_iff.mp h
  exact List.mem_append_right _ List.mem_cons_self

/-- What stands in a table of distinct keys is looked up. -/
theorem lookup_of_mem [LawfulBEq α] {key : α} {value : β} {table : List (α × β)}
    (hkeys : (table.map Prod.fst).Nodup) (h : (key, value) ∈ table) : table.lookup key = some value := by
  induction table with
  | nil => cases h
  | cons e rest ih =>
    obtain ⟨hnew, hkeys⟩ := List.nodup_cons.mp hkeys
    rcases List.mem_cons.mp h with rfl | h
    · simp
    · have hne : key ≠ e.1 := by
        rintro rfl
        exact hnew (List.mem_map.mpr ⟨_, h, rfl⟩)
      rw [lookup_cons_of_ne hne]
      exact ih hkeys h

/-- An entry of a table in which one key was set has the new value or was there before. -/
theorem mem_set {key : α} {value : β} {table : List (α × β)} {e : α × β}
    (h : e ∈ set key value table) : e.2 = value ∨ e ∈ table := by
  induction table with
  | nil =>
    rw [set, List.mem_singleton] at h
    exact Or.inl (congrArg Prod.snd h)
  | cons first rest ih =>
    obtain ⟨k, v⟩ := first
    rw [set] at h
    split at h
    · rcases List.mem_cons.mp h with rfl | h
      · exact Or.inl rfl
      · exact Or.inr (List.mem_cons_of_mem _ h)
    · rcases List.mem_cons.mp h with rfl | h
      · exact Or.inr List.mem_cons_self
      · rcases ih h with h | h
        · exact Or.inl h
        · exact Or.inr (List.mem_cons_of_mem _ h)

theorem set_of_not_mem [LawfulBEq α] {key : α} {value : β} {table : List (α × β)}
    (h : key ∉ table.map Prod.fst) : set key value table = table ++ [(key, value)] := by
  induction table with
  | nil => rfl
  | cons e rest ih =>
    obtain ⟨k, v⟩ := e
    simp only [List.map_cons, List.mem_cons, not_or] at h
    simp [set, Ne.symm h.1, ih h.2]

/-- Setting the value that a key has already changes nothing. -/
theorem set_of_lookup [LawfulBEq α] {key : α} {value : β} {table : List (α × β)}
    (h : table.lookup key = some value) : set key value table = table := by
  induction table with
  | nil => simp at h
  | cons e rest ih =>
    obtain ⟨k, v⟩ := e
    by_cases hk : k = key
    · subst hk
      simp only [List.lookup_cons, BEq.rfl, Option.some.injEq] at h
      simp [set, h]
    · rw [lookup_cons_of_ne (Ne.symm hk)] at h
      simp [set, hk, ih h]

end ArtifactIdentity.Table
