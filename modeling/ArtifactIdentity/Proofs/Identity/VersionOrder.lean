import ArtifactIdentity.Proofs.Identity.DottedText

/-!
# The order of versions

Versions are compared part by part, which is the order of lists of numbers. So it is a strict total order of all
versions, whatever their parts. Within the range it is the order of numbers as well: with each part below 65535
the four parts are the digits of one number in that base, and the first difference decides in both.
-/

namespace ArtifactIdentity.Version

/-- The number that has the parts of a version as its digits in base 65535. -/
def number (v : Version) : Nat :=
  ((v.major * 65535 + v.minor) * 65535 + v.patch) * 65535 + v.build

/-- A literal is accepted as a version, for whichever field it is given. -/
def Accepted (literal : Literal) (v : Version) : Prop :=
  ∃ field, ofLiteral field literal = .ok v

variable {literal : Literal} {u v w : Version} {base : Nat} {as bs : List Nat}

theorem Accepted.inRange (h : Accepted literal v) : v.InRange := by
  obtain ⟨field, h⟩ := h
  exact inRange_of_ofLiteral h

theorem inRange_of_accepted {literals : List Literal} {versions : List Version}
    (h : List.Forall₂ Accepted literals versions) : ∀ v ∈ versions, v.InRange := by
  induction h with
  | nil => simp
  | cons hv _ ih => exact List.forall_mem_cons.mpr ⟨hv.inRange, ih⟩

/-! ## The order of rows -/

theorem compareComponents_cons (a b : Nat) (as bs : List Nat) :
    compareComponents (a :: as) (b :: bs) = (compare a b).then (compareComponents as bs) := by
  rw [compareComponents]
  rcases Nat.lt_trichotomy a b with h | rfl | h
  · rw [if_pos h, Nat.compare_eq_lt.mpr h]
    rfl
  · rw [if_neg (Nat.lt_irrefl a), if_neg (Nat.lt_irrefl a), Nat.compare_eq_eq.mpr rfl]
    rfl
  · rw [if_neg (Nat.lt_asymm h), if_pos h, Nat.compare_eq_gt.mpr h]
    rfl

/-- **Rows of numbers are compared as the core library compares lists.** -/
theorem compareComponents_eq_compareLex (as bs : List Nat) :
    compareComponents as bs = List.compareLex compare as bs := by
  induction as generalizing bs with
  | nil => cases bs <;> rfl
  | cons a as ih =>
    cases bs with
    | nil => rfl
    | cons b bs => rw [compareComponents_cons, ih, List.compareLex_cons_cons]

theorem compare_eq_compareLex (u v : Version) :
    compare u v = List.compareLex compare u.components v.components :=
  compareComponents_eq_compareLex u.components v.components

theorem components_injective (h : u.components = v.components) : u = v := by
  obtain ⟨a, b, c, d⟩ := u
  obtain ⟨a', b', c', d'⟩ := v
  simp only [components, List.cons.injEq, and_true] at h
  obtain ⟨rfl, rfl, rfl, rfl⟩ := h
  rfl

instance : Std.OrientedOrd Version where
  eq_swap := by
    intro u v
    rw [compare_eq_compareLex, compare_eq_compareLex]
    exact Std.OrientedCmp.eq_swap

instance : Std.TransOrd Version where
  isLE_trans := by
    intro u v w huv hvw
    rw [compare_eq_compareLex] at huv hvw ⊢
    exact Std.TransCmp.isLE_trans huv hvw

instance : Std.LawfulEqOrd Version where
  compare_self := by
    intro u
    rw [compare_eq_compareLex]
    exact Std.ReflCmp.compare_self
  eq_of_compare := by
    intro u v h
    rw [compare_eq_compareLex] at h
    exact components_injective (Std.LawfulEqCmp.eq_of_compare h)

/-! ## A strict total order -/

theorem lt_trans (huv : u < v) (hvw : v < w) : u < w :=
  Std.TransCmp.lt_trans huv hvw

theorem lt_asymm (h : u < v) : ¬ v < u := by
  intro h'
  have hswap : compare v u = .gt := Std.OrientedCmp.gt_iff_lt.mpr h
  cases hswap.symm.trans h'

theorem lt_irrefl (v : Version) : ¬ v < v :=
  fun h => lt_asymm h h

theorem lt_trichotomy (u v : Version) : u < v ∨ u = v ∨ v < u := by
  cases h : compare u v with
  | lt => exact Or.inl h
  | eq => exact Or.inr (Or.inl (Std.LawfulEqCmp.eq_of_compare h))
  | gt => exact Or.inr (Or.inr (Std.OrientedCmp.gt_iff_lt.mp h))

theorem not_lt_iff : ¬ v < u ↔ u < v ∨ u = v := by
  constructor
  · intro hnot
    rcases lt_trichotomy u v with h | h | h
    · exact Or.inl h
    · exact Or.inr h
    · exact absurd h hnot
  · rintro (h | rfl)
    · exact lt_asymm h
    · exact lt_irrefl u

/-! ## Digits in one base -/

/-- One digit more: the numbers in front decide, and the digit where they are equal. -/
theorem compare_digit {x y : Nat} (hx : x < base) (hy : y < base) (a b : Nat) :
    compare (a * base + x) (b * base + y) = (compare a b).then (compare x y) := by
  have hless {a b x y : Nat} (hx : x < base) (hab : a < b) : a * base + x < b * base + y := by
    calc a * base + x < (a + 1) * base := by rw [Nat.succ_mul]; omega
      _ ≤ b * base := Nat.mul_le_mul_right base hab
      _ ≤ b * base + y := Nat.le_add_right _ _
  rcases Nat.lt_trichotomy a b with h | rfl | h
  · rw [Nat.compare_eq_lt.mpr h, Nat.compare_eq_lt.mpr (hless hx h)]
    rfl
  · rw [Nat.compare_eq_eq.mpr rfl, Ordering.then, Nat.compare_eq_ite_lt, Nat.compare_eq_ite_lt]
    simp only [Nat.add_lt_add_iff_left]
  · rw [Nat.compare_eq_gt.mpr h, Nat.compare_eq_gt.mpr (hless hy h)]
    rfl

/-- **Rows of digits in one base are compared as the numbers that they are put together to**, behind numbers
that are put in front. -/
theorem compare_foldl (hlength : as.length = bs.length) (has : ∀ n ∈ as, n < base)
    (hbs : ∀ n ∈ bs, n < base) (a b : Nat) :
    compare (as.foldl (fun n part => n * base + part) a) (bs.foldl (fun n part => n * base + part) b) =
      (compare a b).then (compareComponents as bs) := by
  induction as generalizing bs a b with
  | nil =>
    obtain rfl := List.length_eq_zero_iff.mp hlength.symm
    cases h : compare a b <;> simp [compareComponents, h]
  | cons x as ih =>
    cases bs with
    | nil => cases hlength
    | cons y bs =>
      -- The first digits go into the numbers in front, and these decide before the other digits do.
      rw [List.forall_mem_cons] at has hbs
      rw [List.foldl_cons, List.foldl_cons, ih (Nat.succ.inj hlength) has.2 hbs.2,
        compare_digit has.1 hbs.1, compareComponents_cons, Ordering.then_assoc]

theorem InRange.lt_base (h : v.InRange) : ∀ n ∈ v.components, n < 65535 :=
  fun n hn => Nat.lt_succ_of_le (h n hn)

theorem number_eq_foldl (v : Version) :
    v.number = v.components.foldl (fun n part => n * 65535 + part) 0 := by
  simp only [number, components, List.foldl_cons, List.foldl_nil, Nat.zero_mul, Nat.zero_add]

/-- **Within the range versions are compared as their numbers.** -/
theorem compare_number (hu : u.InRange) (hv : v.InRange) : compare u.number v.number = compare u v := by
  have hlength : u.components.length = v.components.length := rfl
  rw [number_eq_foldl, number_eq_foldl, compare_foldl hlength hu.lt_base hv.lt_base]
  rfl

theorem lt_iff_number_lt (hu : u.InRange) (hv : v.InRange) : u < v ↔ u.number < v.number := by
  rw [← Nat.compare_eq_lt, compare_number hu hv]
  rfl

/-! ## Sorting -/

theorem sort_perm (versions : List Version) : (sort versions).Perm versions :=
  List.mergeSort_perm versions _

theorem sort_ascending (versions : List Version) :
    (sort versions).Pairwise fun a b => a < b ∨ a = b := by
  have htrans : ∀ a b c : Version, !decide (b < a) → !decide (c < b) → !decide (c < a) := by
    intro a b c hab hbc
    simp only [Bool.not_eq_true', decide_eq_false_iff_not, not_lt_iff] at hab hbc ⊢
    rcases hab with hab | rfl
    · rcases hbc with hbc | rfl
      · exact Or.inl (lt_trans hab hbc)
      · exact Or.inl hab
    · exact hbc
  have htotal : ∀ a b : Version, !decide (b < a) || !decide (a < b) := by
    intro a b
    simp only [Bool.or_eq_true, Bool.not_eq_true', decide_eq_false_iff_not]
    rcases lt_trichotomy a b with h | rfl | h
    · exact Or.inl (lt_asymm h)
    · exact Or.inl (lt_irrefl a)
    · exact Or.inr (lt_asymm h)
  refine (List.pairwise_mergeSort htrans htotal versions).imp ?_
  intro a b hab
  simpa only [Bool.not_eq_true', decide_eq_false_iff_not, not_lt_iff] using hab

/-- **Of two accepted versions one is less, or they are equal, and no two of these hold; what is less than a lesser
one is less. One is less where its number in base 65535 is, and they compare as equal where their texts are
equal. Sorting what a list of literals is read as puts it in ascending order and changes nothing else.** -/
theorem accepted_are_ordered {x y : Literal} (hx : Accepted x u) (hy : Accepted y v) :
    (u < v ∨ u = v ∨ v < u) ∧ ¬ (u < v ∧ u = v) ∧ ¬ (u = v ∧ v < u) ∧ ¬ (u < v ∧ v < u) ∧
      (∀ w, u < v → v < w → u < w) ∧
      (u < v ↔ u.number < v.number) ∧
      (compare u v = .eq ↔ u = v) ∧ (u = v ↔ u.text = v.text) ∧
      ∀ literals versions, List.Forall₂ Accepted literals versions →
        (sort versions).Perm versions ∧
          (sort versions).Pairwise fun a b => (a < b ∨ a = b) ∧ a.number ≤ b.number := by
  refine ⟨lt_trichotomy u v, ?_, ?_, ?_, fun w => lt_trans, lt_iff_number_lt hx.inRange hy.inRange,
    Std.LawfulEqCmp.compare_eq_iff_eq, (text_eq_iff hx.inRange hy.inRange).symm, ?_⟩
  · rintro ⟨h, rfl⟩
    exact lt_irrefl u h
  · rintro ⟨rfl, h⟩
    exact lt_irrefl u h
  · rintro ⟨h, h'⟩
    exact lt_asymm h h'
  · intro literals versions hread
    refine ⟨sort_perm versions, ?_⟩
    have hrange : ∀ a ∈ sort versions, a.InRange := by
      intro a ha
      exact inRange_of_accepted hread a ((sort_perm versions).mem_iff.mp ha)
    refine (sort_ascending versions).imp_of_mem fun {a b} ha hb hab => ⟨hab, ?_⟩
    rcases hab with hab | rfl
    · exact Nat.le_of_lt ((lt_iff_number_lt (hrange a ha) (hrange b hb)).mp hab)
    · exact Nat.le_refl _

/-- A padded text and a list, in order by their numbers and sorted from the other order. -/
theorem samples_are_ordered :
    Accepted (.text " 1.04.1.0\n") ⟨1, 4, 1, 0⟩ ∧
      Accepted (.list [.integer 1, .integer 4, .integer 1, .integer 65534]) ⟨1, 4, 1, 65534⟩ ∧
      (⟨1, 4, 1, 0⟩ : Version) < ⟨1, 4, 1, 65534⟩ ∧
      (sort [⟨1, 4, 1, 65534⟩, ⟨1, 4, 1, 0⟩]).Pairwise fun a b => (a < b ∨ a = b) ∧ a.number ≤ b.number := by
  have hpadded : Accepted (.text " 1.04.1.0\n") ⟨1, 4, 1, 0⟩ :=
    ⟨"version", eq_ok_of_toOption (by decide +kernel)⟩
  have hlist : Accepted (.list [.integer 1, .integer 4, .integer 1, .integer 65534]) ⟨1, 4, 1, 65534⟩ :=
    ⟨"version", rfl⟩
  obtain ⟨-, -, -, -, -, hnumber, -, -, hsorted⟩ := accepted_are_ordered hpadded hlist
  exact ⟨hpadded, hlist, hnumber.mpr (by decide), (hsorted _ _ (.cons hlist (.cons hpadded .nil))).2⟩

end ArtifactIdentity.Version
