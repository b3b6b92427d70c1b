import ArtifactIdentity.Toml.Document

/-!
# The values of a TOML document

What a document is read as holds flags, numbers, texts, dates and times, arrays and tables, and in no table
a key twice; nothing in it is absent and nothing is a row of bytes. Every step of the reading keeps this: a
value is built from such values, and a table is changed only by setting a key.
-/

namespace ArtifactIdentity.Toml

/-! ## Steps that may fail -/

variable {ε α β : Type}

theorem bind_eq_ok_iff {x : Except ε α} {f : α → Except ε β} {b : β} :
    x >>= f = .ok b ↔ ∃ a, x = .ok a ∧ f a = .ok b := by
  constructor
  · intro h
    cases x with
    | error e => cases h
    | ok a => exact ⟨a, rfl, h⟩
  · rintro ⟨a, rfl, h⟩
    exact h

theorem map_eq_ok_iff {x : Except ε α} {f : α → β} {b : β} :
    x.map f = .ok b ↔ ∃ a, x = .ok a ∧ f a = b := by
  cases x <;> simp [Except.map]

/-! ## Values and tables -/

/-- The values that a document can hold. -/
inductive IsValue : Literal → Prop
  | flag (b : Bool) : IsValue (.flag b)
  | integer (n : Int) : IsValue (.integer n)
  | float (x : Binary64) : IsValue (.float x)
  | text (s : String) : IsValue (.text s)
  | date (d : Date) : IsValue (.date d)
  | time (t : TimeOfDay) : IsValue (.time t)
  | moment (m : Moment) : IsValue (.moment m)
  | list (items : List Literal) (h : ∀ item ∈ items, IsValue item) : IsValue (.list items)
  | table (entries : Entries) (hkeys : (entries.map Prod.fst).Nodup)
    (h : ∀ e ∈ entries, IsValue e.2) : IsValue (.table entries)

/-- A table of values in which no key stands twice. -/
structure IsTable (entries : Entries) : Prop where
  distinct : (entries.map Prod.fst).Nodup
  values : ∀ e ∈ entries, IsValue e.2

variable {name : String} {v : Literal} {entries entries' : Entries} {key : Key}

theorem IsTable.nil : IsTable [] :=
  ⟨List.nodup_nil, by simp⟩

theorem IsTable.isValue (h : IsTable entries) : IsValue (.table entries) :=
  .table entries h.distinct h.values

theorem isTable_of_isValue (h : IsValue (.table entries)) : IsTable entries := by
  cases h with
  | table _ hkeys h => exact ⟨hkeys, h⟩

theorem IsTable.isValue_of_lookup (h : IsTable entries) (hv : entries.lookup name = some v) : IsValue v :=
  h.values _ (Table.mem_of_lookup hv)

theorem mem_keys_set {key : String} (h : key ∈ (Table.set name v entries).map Prod.fst) :
    key = name ∨ key ∈ entries.map Prod.fst := by
  induction entries with
  | nil => simpa [Table.set] using h
  | cons e rest ih =>
    obtain ⟨k, w⟩ := e
    by_cases hk : k = name
    · subst hk
      simp only [Table.set, BEq.rfl, if_true, List.map_cons, List.mem_cons] at h ⊢
      exact Or.inr h
    · simp only [Table.set, beq_iff_eq, hk, if_false, List.map_cons, List.mem_cons] at h ⊢
      rcases h with h | h
      · exact Or.inr (Or.inl h)
      · rcases ih h with h | h
        · exact Or.inl h
        · exact Or.inr (Or.inr h)

/-- Setting a key keeps the keys apart. -/
theorem nodup_keys_set (h : (entries.map Prod.fst).Nodup) :
    ((Table.set name v entries).map Prod.fst).Nodup := by
  induction entries with
  | nil => simp [Table.set]
  | cons e rest ih =>
    obtain ⟨k, w⟩ := e
    rw [List.map_cons, List.nodup_cons] at h
    by_cases hk : k = name
    · subst hk
      simpa [Table.set] using h
    · simp only [Table.set, beq_iff_eq, hk, if_false, List.map_cons, List.nodup_cons]
      refine ⟨?_, ih h.2⟩
      intro hmem
      rcases mem_keys_set hmem with heq | hmem
      · exact hk heq
      · exact h.1 hmem

theorem IsTable.set (h : IsTable entries) (hv : IsValue v) : IsTable (Table.set name v entries) := by
  constructor
  · exact nodup_keys_set h.distinct
  · intro e he
    rcases Table.mem_set he with heq | he
    · rw [heq]
      exact hv
    · exact h.values e he

/-! ## Changes inside a table -/

/-- A change makes tables of tables. -/
def KeepsTables (change : Entries → Except Flaw Entries) : Prop :=
  ∀ entries entries', IsTable entries → change entries = .ok entries' → IsTable entries'

/-- **A table that is changed deep inside stays a table.** -/
theorem keepsTables_changeTable {throughArrays : Bool} {change : Entries → Except Flaw Entries}
    (hchange : KeepsTables change) (key : Key) : KeepsTables (changeTable throughArrays change key) := by
  induction key with
  | nil => exact hchange
  | cons name key ih =>
    intro entries entries' htable h
    rw [changeTable] at h
    split at h
    · obtain ⟨inner, hinner, rfl⟩ := map_eq_ok_iff.mp h
      exact htable.set (ih _ _ .nil hinner).isValue
    · rename_i table htaken
      have hbefore := isTable_of_isValue (htable.isValue_of_lookup htaken)
      obtain ⟨inner, hinner, rfl⟩ := map_eq_ok_iff.mp h
      exact htable.set (ih _ _ hbefore hinner).isValue
    · rename_i items htaken
      have hitems : ∀ item ∈ items, IsValue item := by
        cases htable.isValue_of_lookup htaken with
        | list _ hitems => exact hitems
      split at h
      · -- The name stands for the last table of an array.
        rename_i table hlast
        have hbefore := isTable_of_isValue (hitems _ (List.mem_of_getLast? hlast))
        obtain ⟨inner, hinner, rfl⟩ := map_eq_ok_iff.mp h
        apply htable.set
        apply IsValue.list
        intro item hitem
        rcases List.mem_append.mp hitem with hitem | hitem
        · exact hitems item (List.dropLast_subset _ hitem)
        · rw [List.mem_singleton.mp hitem]
          exact (ih _ _ hbefore hinner).isValue
      · cases h
    · cases h

theorem keepsTables_addValue (hv : IsValue v) : KeepsTables (addValue name v) := by
  intro entries entries' htable h
  unfold addValue at h
  split at h
  · cases h
  · obtain rfl := Except.ok.inj h
    exact htable.set hv

theorem keepsTables_addAt {throughArrays : Bool} (hv : IsValue v) (key : Key) :
    KeepsTables (addAt throughArrays key v) := by
  intro entries entries' htable h
  unfold addAt at h
  split at h
  · exact keepsTables_changeTable (keepsTables_addValue hv) _ _ _ htable h
  · cases h

/-! ## Scalars -/

variable {cs rest : List Char}

theorem isValue_of_scanClock {scan : Scan Literal} (hscan : scanClock cs = some scan)
    (h : scan = .ok (v, rest)) : IsValue v := by
  unfold scanClock at hscan
  split at hscan
  · rename_i date behind _
    obtain rfl := Option.some.inj hscan
    split at h
    · have hpair := Except.ok.inj h
      unfold scanBehindDate at hpair
      split at hpair
      · obtain ⟨rfl, -⟩ := Prod.mk.inj hpair
        exact .date date
      · split at hpair
        · obtain ⟨rfl, -⟩ := Prod.mk.inj hpair
          exact .moment _
        · obtain ⟨rfl, -⟩ := Prod.mk.inj hpair
          exact .date date
    · cases h
  · obtain ⟨⟨time, behind⟩, -, rfl⟩ := Option.map_eq_some_iff.mp hscan
    obtain ⟨rfl, -⟩ := Prod.mk.inj (Except.ok.inj h)
    exact .time time

theorem isValue_of_scanBased (h : scanBased cs = some (v, rest)) : IsValue v := by
  unfold scanBased at h
  split at h
  · split at h
    · split at h
      · cases h
      · obtain ⟨rfl, -⟩ := Prod.mk.inj (Option.some.inj h)
        exact .integer _
    · cases h
  · cases h

theorem isValue_of_scanDecimal {scan : Scan Literal} (hscan : scanDecimal cs = some scan)
    (h : scan = .ok (v, rest)) : IsValue v := by
  simp only [scanDecimal] at hscan
  split at hscan
  · cases hscan
  · obtain rfl := Option.some.inj hscan
    split at h
    · obtain ⟨n, hn, hpair⟩ := map_eq_ok_iff.mp h
      obtain ⟨rfl, -⟩ := Prod.mk.inj hpair
      unfold integerOf at hn
      split at hn
      · cases hn
      · obtain rfl := Except.ok.inj hn
        exact .integer _
    · obtain ⟨rfl, -⟩ := Prod.mk.inj (Except.ok.inj h)
      exact .float _

theorem isValue_of_scanSpecial (h : scanSpecial cs = some (v, rest)) : IsValue v := by
  unfold scanSpecial at h
  split at h
  · obtain ⟨rfl, -⟩ := Prod.mk.inj (Option.some.inj h)
    exact .float _
  · obtain ⟨rfl, -⟩ := Prod.mk.inj (Option.some.inj h)
    exact .float _
  · cases h

theorem isValue_of_scanScalar (h : scanScalar cs = .ok (v, rest)) : IsValue v := by
  unfold scanScalar at h
  split at h
  · obtain ⟨⟨text, behind⟩, -, hpair⟩ := map_eq_ok_iff.mp h
    obtain ⟨rfl, -⟩ := Prod.mk.inj hpair
    exact .text _
  split at h
  · obtain ⟨rfl, -⟩ := Prod.mk.inj (Except.ok.inj h)
    exact .flag true
  · obtain ⟨rfl, -⟩ := Prod.mk.inj (Except.ok.inj h)
    exact .flag false
  split at h
  · rename_i scan hscan
    exact isValue_of_scanClock hscan h
  split at h
  · rename_i scan hscan
    obtain rfl := Except.ok.inj h
    exact isValue_of_scanBased hscan
  split at h
  · rename_i scan hscan
    exact isValue_of_scanDecimal hscan h
  split at h
  · rename_i scan hscan
    obtain rfl := Except.ok.inj h
    exact isValue_of_scanSpecial hscan
  · cases h

/-! ## Arrays and inline tables -/

/-- What the readers of nested values find with some fuel. -/
structure ReadsValues (fuel : Nat) : Prop where
  value : ∀ {cs v rest}, scanValue fuel cs = .ok (v, rest) → IsValue v
  items : ∀ {done cs v rest}, (∀ item ∈ done, IsValue item) →
    scanItems fuel done cs = .ok (v, rest) → IsValue v
  members : ∀ {complete done cs v rest}, IsTable done →
    scanMembers fuel complete done cs = .ok (v, rest) → IsValue v
  pair : ∀ {cs key v rest}, scanPair fuel cs = .ok (key, v, rest) → IsValue v

variable {fuel : Nat}

theorem isValue_of_scanItems (ih : ReadsValues fuel) {done : List Literal}
    (hdone : ∀ item ∈ done, IsValue item) (h : scanItems (fuel + 1) done cs = .ok (v, rest)) :
    IsValue v := by
  have hlist {items : List Literal} (hitems : ∀ item ∈ items, IsValue item) :
      IsValue (.list items.reverse) := by
    apply IsValue.list
    intro item hitem
    exact hitems item (List.mem_reverse.mp hitem)
  unfold scanItems at h
  split at h
  · cases h
  · obtain ⟨rfl, -⟩ := Prod.mk.inj (Except.ok.inj h)
    exact hlist hdone
  · rename_i hfuel _
    cases hfuel
    obtain ⟨⟨item, behind⟩, hitem, h⟩ := bind_eq_ok_iff.mp h
    have hmore := List.forall_mem_cons.mpr ⟨ih.value hitem, hdone⟩
    obtain ⟨next, -, h⟩ := bind_eq_ok_iff.mp h
    split at h
    · obtain ⟨rfl, -⟩ := Prod.mk.inj (Except.ok.inj h)
      exact hlist hmore
    · obtain ⟨after, -, h⟩ := bind_eq_ok_iff.mp h
      exact ih.items hmore h
    · cases h

theorem isValue_of_scanMembers (ih : ReadsValues fuel) {complete : List Key} {done : Entries}
    (hdone : IsTable done) (h : scanMembers (fuel + 1) complete done cs = .ok (v, rest)) :
    IsValue v := by
  rw [scanMembers] at h
  obtain ⟨⟨key, w, behind⟩, hpair, h⟩ := bind_eq_ok_iff.mp h
  dsimp only at h
  split at h
  · cases h
  · obtain ⟨more, hadd, h⟩ := bind_eq_ok_iff.mp h
    have hmore := keepsTables_addAt (ih.pair hpair) key _ _ hdone hadd
    split at h
    · obtain ⟨rfl, -⟩ := Prod.mk.inj (Except.ok.inj h)
      exact hmore.isValue
    · exact ih.members hmore h
    · cases h

theorem isValue_of_scanValue (ih : ReadsValues fuel) (h : scanValue (fuel + 1) cs = .ok (v, rest)) :
    IsValue v := by
  unfold scanValue at h
  split at h
  · cases h
  · rename_i hfuel
    cases hfuel
    obtain ⟨next, -, h⟩ := bind_eq_ok_iff.mp h
    exact ih.items (by simp) h
  · rename_i hfuel
    cases hfuel
    split at h
    · obtain ⟨rfl, -⟩ := Prod.mk.inj (Except.ok.inj h)
      exact IsTable.nil.isValue
    · exact ih.members .nil h
  · exact isValue_of_scanScalar h

theorem isValue_of_scanPair_succ (ih : ReadsValues fuel)
    (h : scanPair (fuel + 1) cs = .ok (key, v, rest)) : IsValue v := by
  rw [scanPair] at h
  obtain ⟨⟨key', behind⟩, -, h⟩ := bind_eq_ok_iff.mp h
  dsimp only at h
  split at h
  · obtain ⟨⟨w, after⟩, hvalue, h⟩ := bind_eq_ok_iff.mp h
    obtain ⟨-, rfl, -⟩ := Prod.mk.inj (Except.ok.inj h)
    exact ih.value hvalue
  · cases h

/-- Whatever is read is a value of a document, by induction on the fuel for all readers at once. -/
theorem readsValues (fuel : Nat) : ReadsValues fuel := by
  induction fuel with
  | zero =>
    constructor
    · rintro cs v rest ⟨⟩
    · rintro done cs v rest - ⟨⟩
    · rintro complete done cs v rest - ⟨⟩
    · rintro cs key v rest ⟨⟩
  | succ fuel ih =>
    constructor
    · exact isValue_of_scanValue ih
    · exact isValue_of_scanItems ih
    · exact isValue_of_scanMembers ih
    · exact isValue_of_scanPair_succ ih

/-! ## Documents -/

namespace Document

variable {doc doc' : Document}

theorem isTable_of_setPair (hv : IsValue v) (hroot : IsTable doc.root)
    (h : doc.setPair key v = .ok doc') : IsTable doc'.root := by
  unfold setPair at h
  dsimp only at h
  split at h
  · cases h
  · obtain ⟨root, hadd, rfl⟩ := map_eq_ok_iff.mp h
    exact keepsTables_addAt hv _ _ _ hroot hadd

theorem isTable_of_openTable (hroot : IsTable doc.root) (h : doc.openTable key = .ok doc') :
    IsTable doc'.root := by
  have hsame : KeepsTables .ok := by
    rintro entries _ htable ⟨⟩
    exact htable
  unfold openTable at h
  split at h
  · cases h
  · obtain ⟨root, hchange, rfl⟩ := map_eq_ok_iff.mp h
    exact keepsTables_changeTable hsame _ _ _ hroot hchange

theorem keepsTables_addTable (name : String) : KeepsTables (addTable name) := by
  intro entries entries' htable h
  unfold addTable at h
  split at h
  · obtain rfl := Except.ok.inj h
    apply htable.set
    apply IsValue.list
    intro item hitem
    rw [List.mem_singleton.mp hitem]
    exact IsTable.nil.isValue
  · rename_i items htaken
    obtain rfl := Except.ok.inj h
    have hitems : ∀ item ∈ items, IsValue item := by
      cases htable.isValue_of_lookup htaken with
      | list _ hitems => exact hitems
    apply htable.set
    apply IsValue.list
    intro item hitem
    rcases List.mem_append.mp hitem with hitem | hitem
    · exact hitems item hitem
    · rw [List.mem_singleton.mp hitem]
      exact IsTable.nil.isValue
  · cases h

theorem isTable_of_openItem (hroot : IsTable doc.root) (h : doc.openItem key = .ok doc') :
    IsTable doc'.root := by
  unfold openItem at h
  split at h
  · cases h
  split at h
  · cases h
  · obtain ⟨root, hchange, rfl⟩ := map_eq_ok_iff.mp h
    exact keepsTables_changeTable (keepsTables_addTable _) _ _ _ hroot hchange

/-- A statement keeps the table of the document a table. -/
theorem isTable_of_scanStatement (hroot : IsTable doc.root)
    (h : doc.scanStatement cs = .ok (doc', rest)) : IsTable doc'.root := by
  unfold scanStatement at h
  split at h
  · obtain ⟨⟨key, behind⟩, -, h⟩ := bind_eq_ok_iff.mp h
    obtain ⟨next, hopen, h⟩ := bind_eq_ok_iff.mp h
    split at h
    · obtain ⟨rfl, -⟩ := Prod.mk.inj (Except.ok.inj h)
      have hsection : IsTable doc.endSection.root := hroot
      exact isTable_of_openItem hsection hopen
    · cases h
  · obtain ⟨⟨key, behind⟩, -, h⟩ := bind_eq_ok_iff.mp h
    obtain ⟨next, hopen, h⟩ := bind_eq_ok_iff.mp h
    split at h
    · obtain ⟨rfl, -⟩ := Prod.mk.inj (Except.ok.inj h)
      have hsection : IsTable doc.endSection.root := hroot
      exact isTable_of_openTable hsection hopen
    · cases h
  · obtain ⟨rfl, -⟩ := Prod.mk.inj (Except.ok.inj h)
    exact hroot
  · obtain ⟨⟨key, v, behind⟩, hpair, h⟩ := bind_eq_ok_iff.mp h
    obtain ⟨next, hset, h⟩ := bind_eq_ok_iff.mp h
    obtain ⟨rfl, -⟩ := Prod.mk.inj (Except.ok.inj h)
    exact isTable_of_setPair ((readsValues _).pair hpair) hroot hset

/-- The lines of a document keep its table a table. -/
theorem isTable_of_scanLines {lines : Nat} (hroot : IsTable doc.root)
    (h : scanLines lines doc cs = .ok doc') : IsTable doc'.root := by
  induction lines generalizing doc cs with
  | zero => cases h
  | succ lines ih =>
    rw [scanLines] at h
    split at h
    · obtain rfl := Except.ok.inj h
      exact hroot
    · exact ih hroot h
    · obtain ⟨⟨next, behind⟩, hstatement, h⟩ := bind_eq_ok_iff.mp h
      have hnext := isTable_of_scanStatement hroot hstatement
      obtain ⟨after, -, h⟩ := bind_eq_ok_iff.mp h
      split at h
      · obtain rfl := Except.ok.inj h
        exact hnext
      · exact ih hnext h
      · cases h

end Document

/-- **What a document is read as is a table of values.** -/
theorem isTable_of_ofBytes {data : ByteArray} (h : ofBytes data = .ok entries) : IsTable entries := by
  unfold ofBytes at h
  split at h
  · obtain ⟨doc, hlines, rfl⟩ := map_eq_ok_iff.mp h
    exact Document.isTable_of_scanLines IsTable.nil hlines
  · cases h

end ArtifactIdentity.Toml
