import ArtifactIdentity.Json.Reader
import ArtifactIdentity.Literal.Written

/-!
# What is read can be shown

A JSON document has integers of 64 bits only, and the literal of such an integer can be shown. So every value
that is read from a document can be shown whole, however deep it is. The stack of open containers carries the
proof: what is done in it can be shown, and each token keeps it so.
-/

namespace ArtifactIdentity

/-- A table can be shown where each of its values can. -/
theorem Literal.entriesWritable_iff {entries : Entries} :
    entriesWritable entries = true ↔ ∀ e ∈ entries, e.2.isWritable = true := by
  induction entries with
  | nil => simp [entriesWritable]
  | cons e rest ih =>
    obtain ⟨name, value⟩ := e
    simp [entriesWritable, ih]

namespace Json

/-- The literal of a value can be shown. -/
def IsWritable (v : Json) : Prop :=
  v.toLiteral.isWritable = true

theorem isWritable_array_iff {items : List Json} :
    (array items).IsWritable ↔ ∀ v ∈ items, v.IsWritable := by
  simp only [IsWritable, toLiteral, Literal.isWritable]
  induction items with
  | nil => simp [literalsOf, Literal.areWritable]
  | cons v rest ih => simp [literalsOf, Literal.areWritable, ih]

theorem isWritable_object_iff {members : List (String × Json)} :
    (object members).IsWritable ↔ ∀ e ∈ members, e.2.IsWritable := by
  simp only [IsWritable, toLiteral, Literal.isWritable]
  induction members with
  | nil => simp [entriesOf, Literal.entriesWritable]
  | cons e rest ih =>
    obtain ⟨name, v⟩ := e
    simp [entriesOf, Literal.entriesWritable, ih]

/-! ## Tokens -/

/-- A token that is a value can be shown. -/
def Token.IsWritable : Token → Prop
  | .literal v => v.IsWritable
  | _ => True

/-- Sixty-four bits are far below the limit on digits. -/
theorem isWritable_integer {n : Int} (hlow : -0x8000000000000000 ≤ n)
    (hhigh : n < 0x10000000000000000) : (integer n).IsWritable := by
  have hlimit : 0x10000000000000000 ≤ Literal.integerLimit := by decide +kernel
  have habs : n.natAbs < 0x10000000000000000 := by omega
  simp only [IsWritable, toLiteral, Literal.isWritable, decide_eq_true_eq]
  exact Nat.lt_of_lt_of_le habs hlimit

theorem isWritable_of_numberOf {negative : Bool} {whole : List Char} {fraction : Option (List Char)}
    {exponent : Option Int} {v : Json} (h : numberOf negative whole fraction exponent = some v) :
    v.IsWritable := by
  simp only [numberOf] at h
  generalize (if negative then -(Text.valueOf 10 whole : Int) else Text.valueOf 10 whole) = n at h
  split at h
  · rename_i hrange
    simp only [Bool.and_eq_true, decide_eq_true_eq] at hrange
    obtain rfl := Option.some.inj h
    exact isWritable_integer hrange.1.2 hrange.2
  · split at h
    · cases h
    · obtain rfl := Option.some.inj h
      rfl

/-- A number is put together from the parts of its numeral. -/
theorem numberOf_of_scanUnsigned {negative : Bool} {cs rest : List Char} {v : Json}
    (h : scanUnsigned negative cs = some (v, rest)) :
    ∃ whole fraction exponent, numberOf negative whole fraction exponent = some v := by
  simp only [scanUnsigned] at h
  split at h
  · cases h
  · split at h
    · cases h
    · split at h
      · cases h
      · obtain ⟨v', hv, hpair⟩ := Option.map_eq_some_iff.mp h
        obtain rfl : v' = v := congrArg Prod.fst hpair
        exact ⟨_, _, _, hv⟩

/-- A token that is a value is a number or one of the three words. -/
theorem literal_of_scanToken {cs rest : List Char} {v : Json}
    (h : scanToken cs = some (.literal v, rest)) :
    v = .null ∨ (∃ b, v = .bool b) ∨
      ∃ negative whole fraction exponent, numberOf negative whole fraction exponent = some v := by
  have hnumber {negative : Bool} {digits : List Char}
      (h : (scanUnsigned negative digits).map (fun p => (Token.literal p.1, p.2)) =
        some (.literal v, rest)) :
      ∃ negative whole fraction exponent, numberOf negative whole fraction exponent = some v := by
    obtain ⟨⟨v', more⟩, hv, hpair⟩ := Option.map_eq_some_iff.mp h
    obtain rfl : v' = v := Token.literal.inj (congrArg Prod.fst hpair)
    exact ⟨negative, numberOf_of_scanUnsigned hv⟩
  unfold scanToken at h
  split at h
  case h_9 | h_10 =>
    obtain rfl := Token.literal.inj (congrArg Prod.fst (Option.some.inj h))
    exact Or.inr (Or.inl ⟨_, rfl⟩)
  case h_11 =>
    obtain rfl := Token.literal.inj (congrArg Prod.fst (Option.some.inj h))
    exact Or.inl rfl
  case h_12 => exact Or.inr (Or.inr (hnumber h))
  case h_13 => exact Or.inr (Or.inr (hnumber h))
  case h_8 =>
    obtain ⟨_, -, hpair⟩ := Option.map_eq_some_iff.mp h
    cases congrArg Prod.fst hpair
  -- Nothing is left, or a punctuation mark stands there.
  all_goals cases h

theorem isWritable_of_scanToken {cs rest : List Char} {t : Token}
    (h : scanToken cs = some (t, rest)) : t.IsWritable := by
  cases t with
  | literal v =>
    rcases literal_of_scanToken h with rfl | ⟨b, rfl⟩ | ⟨negative, whole, fraction, exponent, hnumber⟩
    · rfl
    · rfl
    · exact isWritable_of_numberOf hnumber
  | _ => trivial

theorem isWritable_of_tokens {cs : List Char} {ts : List Token} (h : tokens cs = some ts) :
    ∀ t ∈ ts, t.IsWritable := by
  induction cs using tokens.induct generalizing ts with
  | case1 =>
    rw [tokens] at h
    obtain rfl := Option.some.inj h
    simp
  | case2 c cs hspace ih =>
    rw [tokens, if_pos hspace] at h
    exact ih h
  | case3 c cs hspace hscan =>
    rw [tokens, if_neg hspace] at h
    split at h
    · cases h
    · rename_i hsome
      rw [hscan] at hsome
      cases hsome
  | case4 c cs hspace t rest hscan ih =>
    rw [tokens, if_neg hspace] at h
    split at h
    · cases h
    · rename_i t' rest' hscan'
      rw [hscan] at hscan'
      obtain ⟨rfl, rfl⟩ := Prod.mk.inj (Option.some.inj hscan')
      obtain ⟨more, hmore, rfl⟩ := Option.map_eq_some_iff.mp h
      intro u hu
      rcases List.mem_cons.mp hu with rfl | hu
      · exact isWritable_of_scanToken hscan
      · exact ih hmore u hu

/-! ## Values -/

/-- What is done in an open container can be shown. -/
def Frame.IsWritable : Frame → Prop
  | .items done => ∀ v ∈ done, v.IsWritable
  | .member done _ => ∀ e ∈ done, e.2.IsWritable

/-- What is done beside the open containers can be shown. -/
def Expected.IsWritable : Expected → Prop
  | .name done | .colon done _ => ∀ e ∈ done, e.2.IsWritable
  | .after v => v.IsWritable
  | .value | .firstItem | .firstName => True

theorem isWritable_set {name : String} {v : Json} {done : List (String × Json)} (hv : v.IsWritable)
    (hdone : ∀ e ∈ done, e.2.IsWritable) : ∀ e ∈ Table.set name v done, e.2.IsWritable := by
  intro e he
  rcases Table.mem_set he with h | h
  · rw [h]
    exact hv
  · exact hdone e h

/-- **A value is put together from writable tokens only as a writable value.** -/
theorem isWritable_of_build {e : Expected} {frames : List Frame} {ts : List Token} {v : Json}
    (he : e.IsWritable) (hframes : ∀ f ∈ frames, f.IsWritable) (hts : ∀ t ∈ ts, t.IsWritable)
    (h : build e frames ts = some v) : v.IsWritable := by
  have hbehind {t : Token} {rest : List Token} (hts : ∀ u ∈ t :: rest, u.IsWritable) :
      ∀ u ∈ rest, u.IsWritable := (List.forall_mem_cons.mp hts).2
  have hempty {α : Type} (p : α → Prop) : ∀ a ∈ ([] : List α), p a := by simp
  fun_induction build e frames ts with
  -- The end of the document.
  | case1 =>
    obtain rfl := Option.some.inj h
    exact he
  -- An item or a member is complete, and its array or object goes on or ends.
  | case2 v done frames rest ih =>
    obtain ⟨hdone, hframes⟩ := List.forall_mem_cons.mp hframes
    have hitems : (Frame.items (v :: done)).IsWritable := List.forall_mem_cons.mpr ⟨he, hdone⟩
    exact ih trivial (List.forall_mem_cons.mpr ⟨hitems, hframes⟩) (hbehind hts) h
  | case3 v done frames rest ih =>
    obtain ⟨hdone, hframes⟩ := List.forall_mem_cons.mp hframes
    have hitems : ∀ u ∈ v :: done, u.IsWritable := List.forall_mem_cons.mpr ⟨he, hdone⟩
    refine ih (isWritable_array_iff.mpr ?_) hframes (hbehind hts) h
    intro u hu
    exact hitems u (List.mem_reverse.mp hu)
  | case4 v done name frames rest ih =>
    obtain ⟨hdone, hframes⟩ := List.forall_mem_cons.mp hframes
    exact ih (isWritable_set he hdone) hframes (hbehind hts) h
  | case5 v done name frames rest ih =>
    obtain ⟨hdone, hframes⟩ := List.forall_mem_cons.mp hframes
    exact ih (isWritable_object_iff.mpr (isWritable_set he hdone)) hframes (hbehind hts) h
  | case6 done frames rest ih =>
    exact ih (isWritable_array_iff.mpr (hempty _)) (List.forall_mem_cons.mp hframes).2 (hbehind hts) h
  -- A value that holds no other.
  | case7 frames v rest ih | case8 frames v rest ih =>
    exact ih (List.forall_mem_cons.mp hts).1 hframes (hbehind hts) h
  | case9 frames s rest ih | case10 frames s rest ih => exact ih rfl hframes (hbehind hts) h
  -- A container is opened, unless it lies too deep.
  | case11 frames rest _ ih | case13 frames rest _ ih =>
    exact ih trivial (List.forall_mem_cons.mpr ⟨hempty _, hframes⟩) (hbehind hts) h
  | case15 frames rest _ ih | case17 frames rest _ ih => exact ih trivial hframes (hbehind hts) h
  | case12 | case14 | case16 | case18 => cases h
  -- The names of an object.
  | case19 frames rest ih => exact ih (isWritable_object_iff.mpr (hempty _)) hframes (hbehind hts) h
  | case20 frames s rest ih => exact ih (hempty _) hframes (hbehind hts) h
  | case21 done frames s rest ih => exact ih he hframes (hbehind hts) h
  | case22 done name frames rest ih =>
    exact ih trivial (List.forall_mem_cons.mpr ⟨he, hframes⟩) (hbehind hts) h
  | case23 => cases h

/-- **Every value that is read from a document can be shown.** -/
theorem isWritable_of_ofBytes? {data : ByteArray} {v : Json} (h : ofBytes? data = some v) :
    v.IsWritable := by
  obtain ⟨s, -, hs⟩ := Option.bind_eq_some_iff.mp h
  obtain ⟨ts, hts, hbuild⟩ := Option.bind_eq_some_iff.mp hs
  have hvalue : Expected.value.IsWritable := trivial
  have hframes : ∀ f ∈ ([] : List Frame), f.IsWritable := by simp
  exact isWritable_of_build hvalue hframes (isWritable_of_tokens hts) hbuild

end Json

end ArtifactIdentity
