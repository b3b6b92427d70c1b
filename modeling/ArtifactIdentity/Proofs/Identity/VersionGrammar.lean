import ArtifactIdentity.Proofs.Identity.NormalForm
import Mathlib.Data.List.Induction

/-!
# The grammar of versions

Which literals are versions is said here without the reader: a text of four numbers with dots between them,
each with as many zeros in front as the limit on digits allows, and white space around the whole; or a
sequence of four integers, of whatever kind the sequence is. The reader accepts just these. It looks at the
number of digits before it looks at the number, and that check turns away no number within the range, however
many zeros stand in front.

This is wider than a text, a list, a tuple or a quad: a range of four numbers is a version too. And the white
space around a text is wider than that of Unicode: the information separators are trimmed as well.
-/

namespace ArtifactIdentity

namespace Text

/-! ## Digits and their value -/

theorem digitValue_lt_ten {c : Char} (h : isDigit c = true) : digitValue c < 10 := by
  rw [digitValue, if_pos h]
  simp only [isDigit, Bool.and_eq_true, decide_eq_true_eq] at h
  have high : c.toNat ≤ 57 := h.2
  omega

theorem digitOf_digitValue {c : Char} (h : isDigit c = true) : digitOf (digitValue c) = c := by
  have hlt := digitValue_lt_ten h
  rw [digitOf, if_pos hlt, digitValue, if_pos h]
  simp only [isDigit, Bool.and_eq_true, decide_eq_true_eq] at h
  have low : 48 ≤ c.toNat := h.1
  rw [show 48 + (c.toNat - 48) = c.toNat by omega]
  exact Char.ofNat_toNat c

/-- **A row of digits is the decimal text of its value with zeros in front.** -/
theorem exists_zeros_decimal {cs : List Char} (hne : cs ≠ []) (h : ∀ c ∈ cs, isDigit c = true) :
    ∃ zeros, cs = List.replicate zeros '0' ++ decimal (valueOf 10 cs) := by
  induction cs using List.reverseRecOn with
  | nil => exact absurd rfl hne
  | append_singleton cs c ih =>
    have hc : isDigit c = true := h c (by simp)
    have hlt := digitValue_lt_ten hc
    have hdigit := digitOf_digitValue hc
    rw [valueOf_append_singleton]
    by_cases hnil : cs = []
    · -- A single digit is its own text.
      subst hnil
      refine ⟨0, ?_⟩
      have hvalue : valueOf 10 [] * 10 + digitValue c = digitValue c := Nat.zero_add _
      rw [hvalue, decimal_of_lt hlt, hdigit]
      rfl
    · obtain ⟨zeros, hcs⟩ := ih hnil fun d hd => h d (by simp [hd])
      rcases Nat.eq_zero_or_pos (valueOf 10 cs) with hzero | hpos
      · -- So far there are zeros alone, one of which is the text of zero.
        refine ⟨zeros + 1, ?_⟩
        have hzeros : cs = List.replicate (zeros + 1) '0' := by
          rw [hcs, hzero, decimal_of_lt (by omega), List.replicate_succ']
          rfl
        rw [hzero, Nat.zero_mul, Nat.zero_add, decimal_of_lt hlt, hdigit, ← hzeros]
      · refine ⟨zeros, ?_⟩
        have hquotient : (valueOf 10 cs * 10 + digitValue c) / 10 = valueOf 10 cs := by omega
        have hremainder : (valueOf 10 cs * 10 + digitValue c) % 10 = digitValue c := by omega
        rw [decimal_of_le (by omega), hquotient, hremainder, hdigit, ← List.append_assoc, ← hcs]

/-! ## White space around a text -/

/-- White space as Unicode has it: what is blank and no information separator. -/
def isUnicodeSpace (c : Char) : Bool :=
  isBlank c && !(0x1C ≤ c.toNat && c.toNat ≤ 0x1F)

/-- White space around a text without any is trimmed away. -/
theorem trim_padded {before core after : List Char} (hbefore : isBlankText before = true)
    (hafter : isBlankText after = true) (hcore : ∀ c ∈ core, isBlank c = false) :
    trim (before ++ core ++ after) = core := by
  have hbefore : ∀ c ∈ before, isBlank c = true := by simpa [isBlankText] using hbefore
  have hafter : ∀ c ∈ after.reverse, isBlank c = true := by simpa [isBlankText] using hafter
  by_cases hnil : core = []
  · subst hnil
    apply trim_eq_nil_of_isBlankText
    rw [isBlankText, List.all_eq_true]
    simp only [List.append_nil, List.mem_append]
    rintro c (hc | hc)
    · exact hbefore c hc
    · exact hafter c (List.mem_reverse.mpr hc)
  · obtain ⟨first, rest, rfl⟩ := List.exists_cons_of_ne_nil hnil
    have hfirst : ¬ isBlank first = true := by simp [hcore first List.mem_cons_self]
    have hfront : (before ++ (first :: rest) ++ after).dropWhile isBlank = first :: rest ++ after := by
      rw [List.append_assoc, List.dropWhile_append_of_pos hbefore, List.cons_append,
        List.dropWhile_cons_of_neg hfirst]
    rw [trim, hfront, List.reverse_append, List.dropWhile_append_of_pos hafter]
    have hkept := trim_eq_self hcore
    rw [trim, List.dropWhile_cons_of_neg hfirst] at hkept
    exact hkept

/-- What trimming takes away is white space before and behind. -/
theorem exists_padding (cs : List Char) :
    ∃ before after, isBlankText before = true ∧ isBlankText after = true ∧
      cs = before ++ trim cs ++ after := by
  have blank (ds : List Char) : isBlankText (ds.takeWhile isBlank) = true := List.all_takeWhile
  refine ⟨cs.takeWhile isBlank, ((cs.dropWhile isBlank).reverse.takeWhile isBlank).reverse, blank cs,
    ?_, ?_⟩
  · rw [isBlankText, List.all_reverse]
    exact blank _
  · rw [trim, List.append_assoc, ← List.reverse_append, List.takeWhile_append_dropWhile,
      List.reverse_reverse, List.takeWhile_append_dropWhile]

end Text

namespace Version

open Text

/-! ## The grammar -/

/-- The text of a part: digits that can be read as an integer, with a value within the range. -/
structure IsPart (cs : List Char) (n : Nat) : Prop where
  nonempty : cs ≠ []
  digits : ∀ c ∈ cs, isDigit c = true
  readable : cs.length ≤ 4300
  value : valueOf 10 cs = n
  inRange : n ≤ 65534

/-- The items of a sequence that is a version: four integers, none of them below zero. -/
structure IsRow (items : List Literal) (v : Version) : Prop where
  items : items = [.integer v.major, .integer v.minor, .integer v.patch, .integer v.build]
  inRange : ∀ n ∈ [v.major, v.minor, v.patch, v.build], n ≤ 65534

/-- **The literals that are versions.** Bytes are none, nor is any literal that is not a sequence. -/
inductive Spells : Literal → Version → Prop
  | text {s : String} {v : Version} (before a b c d after : List Char)
      (hbefore : isBlankText before = true) (hafter : isBlankText after = true)
      (hs : s.toList = before ++ (a ++ '.' :: (b ++ '.' :: (c ++ '.' :: d))) ++ after)
      (ha : IsPart a v.major) (hb : IsPart b v.minor) (hc : IsPart c v.patch) (hd : IsPart d v.build) :
      Spells (.text s) v
  | list {items : List Literal} {v : Version} (h : IsRow items v) : Spells (.list items) v
  | tuple {items : List Literal} {v : Version} (h : IsRow items v) : Spells (.tuple items) v
  | quad {a b c d : Literal} {v : Version} (h : IsRow [a, b, c, d] v) : Spells (.quad a b c d) v
  | sequence {traits : SequenceTraits} {items : List Literal} {v : Version} (h : IsRow items v) :
      Spells (.sequence traits items) v

variable {field : String} {literal : Literal} {v : Version} {cs : List Char} {n : Nat}

/-! ## One part -/

theorem isNumeral_iff : isNumeral cs = true ↔ cs ≠ [] ∧ ∀ c ∈ cs, isDigit c = true := by
  simp [isNumeral]

/-- **The check of the number of digits turns away no number within the range.** -/
theorem isOversized_of_inRange (hcs : isNumeral cs = true) (hrange : valueOf 10 cs ≤ maxComponent) :
    isOversized cs = false := by
  obtain ⟨hne, hdigits⟩ := isNumeral_iff.mp hcs
  obtain ⟨zeros, hzeros⟩ := exists_zeros_decimal hne hdigits
  have hshort := isOversized_decimal hrange
  have hdrop : cs.dropWhile (· = '0') = (decimal (valueOf 10 cs)).dropWhile (· = '0') := by
    have hall : ∀ c ∈ List.replicate zeros '0', decide (c = '0') = true := by
      intro c hc
      exact decide_eq_true (List.eq_of_mem_replicate hc)
    conv => lhs; rw [hzeros]
    exact List.dropWhile_append_of_pos hall
  rw [isOversized, hdrop]
  exact hshort

theorem IsPart.isNumeral (h : IsPart cs n) : isNumeral cs = true :=
  isNumeral_iff.mpr ⟨h.nonempty, h.digits⟩

theorem IsPart.isOversized (h : IsPart cs n) : isOversized cs = false := by
  apply isOversized_of_inRange h.isNumeral
  rw [h.value]
  exact h.inRange

theorem IsPart.not_mem_dot (h : IsPart cs n) : '.' ∉ cs := by
  intro hdot
  have := h.digits _ hdot
  simp [isDigit] at this

/-! ## Four numbers -/

/-- Numerals are read as their values where each of them is within the limit on digits. -/
theorem numbersOf_eq_ok_iff {parts : List (List Char)} {ns : List Int} :
    numbersOf parts = .ok ns ↔
      (∀ cs ∈ parts, cs.length ≤ maxDigits) ∧ ns = parts.map fun cs => (valueOf 10 cs : Int) := by
  induction parts generalizing ns with
  | nil => simp [numbersOf, eq_comm]
  | cons cs rest ih =>
    rw [numbersOf]
    by_cases hlong : maxDigits < cs.length
    · rw [if_pos hlong]
      simp only [List.forall_mem_cons, reduceCtorEq, false_iff]
      rintro ⟨⟨hshort, -⟩, -⟩
      omega
    · rw [if_neg hlong]
      cases hrest : numbersOf rest with
      | error fault =>
        have hnot : ¬ ∀ cs ∈ rest, cs.length ≤ maxDigits := by
          intro hall
          cases hrest.symm.trans (ih.mpr ⟨hall, rfl⟩)
        simp only [Except.map, List.forall_mem_cons, reduceCtorEq, false_iff]
        rintro ⟨⟨-, hall⟩, -⟩
        exact hnot hall
      | ok numbers =>
        obtain ⟨hall, rfl⟩ := ih.mp hrest
        simp only [Except.map, Except.ok.injEq, List.forall_mem_cons, List.map_cons]
        constructor
        · rintro rfl
          exact ⟨⟨by omega, hall⟩, rfl⟩
        · rintro ⟨-, rfl⟩
          rfl

/-- Integers make a version exactly where they are its four parts. -/
theorem ofIntegers_eq_ok_iff {ns : List Int} :
    ofIntegers field literal ns = .ok v ↔ v.InRange ∧ ns = v.components.map Int.ofNat := by
  constructor
  · intro h
    refine ⟨inRange_of_ofIntegers h, ?_⟩
    unfold ofIntegers at h
    split at h
    · rename_i a b c d
      split at h
      · simp [refuse] at h
      · rename_i hnone
        obtain rfl := Except.ok.inj h
        have hpositive : ∀ n ∈ [a, b, c, d], n = Int.ofNat n.toNat := by
          intro n hn
          have := List.find?_eq_none.mp hnone n hn
          simp only [Bool.or_eq_true, decide_eq_true_eq, not_or] at this
          exact (Int.toNat_of_nonneg (by omega)).symm
        simp only [List.forall_mem_cons, List.not_mem_nil, false_implies, implies_true, and_true]
          at hpositive
        obtain ⟨ha, hb, hc, hd⟩ := hpositive
        simp only [components, List.map_cons, List.map_nil]
        rw [← ha, ← hb, ← hc, ← hd]
    · simp [refuse] at h
  · rintro ⟨hrange, rfl⟩
    exact ofIntegers_components field literal hrange

/-- The integers of a sequence are its items. -/
theorem integersOf_eq_some_iff {items : List Literal} {ns : List Int} :
    integersOf items = some ns ↔ items = ns.map Literal.integer := by
  induction items generalizing ns with
  | nil => simp [integersOf, eq_comm]
  | cons item rest ih =>
    cases item with
    | integer n =>
      rw [integersOf, Option.map_eq_some_iff]
      constructor
      · rintro ⟨more, hmore, rfl⟩
        rw [ih.mp hmore, List.map_cons]
      · intro h
        cases ns with
        | nil => cases h
        | cons n' more =>
          obtain ⟨hn, hmore⟩ := List.cons.inj h
          obtain rfl := Literal.integer.inj hn
          exact ⟨more, ih.mpr hmore, rfl⟩
    | _ => cases ns <;> simp [integersOf]

/-! ## Accepted texts -/

/-- The pieces of a version text are its parts. -/
theorem splitAt_parts {a b c d : List Char} {n₁ n₂ n₃ n₄ : Nat} (ha : IsPart a n₁) (hb : IsPart b n₂)
    (hc : IsPart c n₃) (hd : IsPart d n₄) :
    splitAt '.' (a ++ '.' :: (b ++ '.' :: (c ++ '.' :: d))) = [a, b, c, d] := by
  apply splitAt_joinWith '.' (List.cons_ne_nil a [b, c, d])
  simp only [List.forall_mem_cons]
  exact ⟨ha.not_mem_dot, hb.not_mem_dot, hc.not_mem_dot, hd.not_mem_dot, by simp⟩

theorem not_isBlank_parts {a b c d : List Char} {n₁ n₂ n₃ n₄ : Nat} (ha : IsPart a n₁) (hb : IsPart b n₂)
    (hc : IsPart c n₃) (hd : IsPart d n₄) :
    ∀ e ∈ a ++ '.' :: (b ++ '.' :: (c ++ '.' :: d)), isBlank e = false := by
  intro e he
  simp only [List.mem_append, List.mem_cons] at he
  rcases he with he | rfl | he | rfl | he | rfl | he
  · exact isBlank_of_isDigit (ha.digits e he)
  · decide
  · exact isBlank_of_isDigit (hb.digits e he)
  · decide
  · exact isBlank_of_isDigit (hc.digits e he)
  · decide
  · exact isBlank_of_isDigit (hd.digits e he)

theorem ofText_of_spells {s : String} (h : Spells (.text s) v) : ofText field s = .ok v := by
  cases h with
  | text before a b c d after hbefore hafter hs ha hb hc hd =>
    have htrim := trim_padded hbefore hafter (not_isBlank_parts ha hb hc hd)
    rw [← hs] at htrim
    have hsplit : splitAt '.' (trim s.toList) = [a, b, c, d] := by
      rw [htrim]
      exact splitAt_parts ha hb hc hd
    have hnumerals : [a, b, c, d].all isNumeral = true := by
      simp [ha.isNumeral, hb.isNumeral, hc.isNumeral, hd.isNumeral]
    have hsizes : [a, b, c, d].any isOversized = false := by
      simp [ha.isOversized, hb.isOversized, hc.isOversized, hd.isOversized]
    have hnumbers : numbersOf [a, b, c, d] = .ok (v.components.map Int.ofNat) := by
      refine numbersOf_eq_ok_iff.mpr ⟨?_, ?_⟩
      · simp only [List.forall_mem_cons]
        exact ⟨ha.readable, hb.readable, hc.readable, hd.readable, by simp⟩
      · simp only [List.map_cons, List.map_nil, ha.value, hb.value, hc.value, hd.value]
        rfl
    have hrange : v.InRange := by
      simp only [InRange, components, List.forall_mem_cons]
      exact ⟨ha.inRange, hb.inRange, hc.inRange, hd.inRange, by simp⟩
    simp only [ofText, hsplit, hnumerals, hsizes, hnumbers]
    exact ofIntegers_components field _ hrange

theorem spells_of_ofText {s : String} (h : ofText field s = .ok v) : Spells (.text s) v := by
  simp only [ofText] at h
  split at h
  · simp [refuse] at h
  rename_i hnumerals
  split at h
  · simp [refuse] at h
  cases hnumbers : numbersOf (splitAt '.' (trim s.toList)) with
  | error fault =>
    rw [hnumbers] at h
    cases h
  | ok ns =>
    rw [hnumbers] at h
    obtain ⟨hrange, rfl⟩ := ofIntegers_eq_ok_iff.mp h
    obtain ⟨hshort, hvalues⟩ := numbersOf_eq_ok_iff.mp hnumbers
    obtain ⟨before, after, hbefore, hafter, hs⟩ := exists_padding s.toList
    have hjoin := joinWith_splitAt '.' (trim s.toList)
    -- There are as many pieces as components.
    obtain ⟨a, b, c, d, hparts⟩ : ∃ a b c d, splitAt '.' (trim s.toList) = [a, b, c, d] := by
      obtain ⟨a, _, ha, -, hthree⟩ := List.map_eq_cons_iff.mp hvalues.symm
      obtain ⟨b, _, rfl, -, htwo⟩ := List.map_eq_cons_iff.mp hthree
      obtain ⟨c, _, rfl, -, hone⟩ := List.map_eq_cons_iff.mp htwo
      obtain ⟨d, _, rfl, -, hnone⟩ := List.map_eq_cons_iff.mp hone
      obtain rfl := List.map_eq_nil_iff.mp hnone
      exact ⟨a, b, c, d, ha⟩
    rw [hparts] at hjoin hnumerals hshort hvalues
    have hnumerals : [a, b, c, d].all isNumeral = true := by simpa using hnumerals
    simp only [List.all_cons, List.all_nil, Bool.and_true, Bool.and_eq_true, isNumeral_iff] at hnumerals
    simp only [List.forall_mem_cons] at hshort
    simp only [components, List.map_cons, List.map_nil, Int.ofNat_eq_natCast, List.cons.injEq,
      Int.natCast_inj, and_true] at hvalues
    simp only [InRange, components, List.forall_mem_cons] at hrange
    obtain ⟨⟨ha, hda⟩, ⟨hb, hdb⟩, ⟨hc, hdc⟩, hd, hdd⟩ := hnumerals
    obtain ⟨hla, hlb, hlc, hld, -⟩ := hshort
    obtain ⟨hva, hvb, hvc, hvd⟩ := hvalues
    obtain ⟨hra, hrb, hrc, hrd, -⟩ := hrange
    refine .text before a b c d after hbefore hafter ?_ ⟨ha, hda, hla, hva.symm, hra⟩
      ⟨hb, hdb, hlb, hvb.symm, hrb⟩ ⟨hc, hdc, hlc, hvc.symm, hrc⟩ ⟨hd, hdd, hld, hvd.symm, hrd⟩
    rw [hs, ← hjoin]
    rfl

/-! ## Accepted sequences -/

theorem isRow_iff {items : List Literal} :
    IsRow items v ↔ v.InRange ∧ items = (v.components.map Int.ofNat).map Literal.integer := by
  constructor
  · intro h
    exact ⟨h.inRange, h.items⟩
  · rintro ⟨hrange, hitems⟩
    exact ⟨hitems, hrange⟩

/-- A sequence is read by its integers, if all its items are such. -/
theorem ofLiteral_of_items {items : List Literal} (htext : ∀ s, literal ≠ .text s)
    (hitems : literal.items? = some items) :
    ofLiteral field literal =
      (integersOf items).elim (refuse field literal "components must be integers")
        (ofIntegers field literal) := by
  unfold ofLiteral
  split
  · rename_i s
    exact absurd rfl (htext s)
  · simp only [hitems]
    cases integersOf items <;> rfl

/-- A sequence is accepted where its items are a row of four numbers. -/
theorem ofLiteral_items_eq_ok_iff {items : List Literal} (htext : ∀ s, literal ≠ .text s)
    (hitems : literal.items? = some items) : ofLiteral field literal = .ok v ↔ IsRow items v := by
  rw [ofLiteral_of_items htext hitems, isRow_iff]
  cases hints : integersOf items with
  | none =>
    simp only [Option.elim_none, refuse, reduceCtorEq, false_iff, not_and]
    intro _ hrow
    cases hints.symm.trans (integersOf_eq_some_iff.mpr hrow)
  | some ns =>
    obtain rfl := integersOf_eq_some_iff.mp hints
    have hinjective : Function.Injective Literal.integer := fun _ _ => Literal.integer.inj
    rw [Option.elim_some, ofIntegers_eq_ok_iff, List.map_inj_right hinjective]

/-- **The reader of versions accepts just what spells a version and reads it as that version. Everything else
is refused, and no number within the range is turned away for the number of its digits.** -/
theorem ofLiteral_accepts_grammar (field : String) (literal : Literal) :
    (∀ v, ofLiteral field literal = .ok v ↔ Spells literal v) ∧
      ((¬ ∃ v, Spells literal v) ↔ ∃ fault, ofLiteral field literal = .error fault) ∧
      ∀ cs, isNumeral cs = true → valueOf 10 cs ≤ 65534 → isOversized cs = false := by
  have haccepts (v : Version) : ofLiteral field literal = .ok v ↔ Spells literal v := by
    cases literal with
    | text s => exact ⟨spells_of_ofText, ofText_of_spells⟩
    | list items =>
      rw [ofLiteral_items_eq_ok_iff (fun _ => Literal.noConfusion) rfl]
      exact ⟨.list, fun | .list h => h⟩
    | tuple items =>
      rw [ofLiteral_items_eq_ok_iff (fun _ => Literal.noConfusion) rfl]
      exact ⟨.tuple, fun | .tuple h => h⟩
    | quad a b c d =>
      rw [ofLiteral_items_eq_ok_iff (fun _ => Literal.noConfusion) rfl]
      exact ⟨.quad, fun | .quad h => h⟩
    | sequence traits items =>
      rw [ofLiteral_items_eq_ok_iff (fun _ => Literal.noConfusion) rfl]
      exact ⟨.sequence, fun | .sequence h => h⟩
    | _ =>
      constructor
      · intro h
        cases h
      · intro h
        cases h
  refine ⟨haccepts, ?_, fun _ => isOversized_of_inRange⟩
  constructor
  · intro hnone
    cases hread : ofLiteral field literal with
    | error fault => exact ⟨fault, rfl⟩
    | ok v => exact absurd ⟨v, (haccepts v).mp hread⟩ hnone
  · rintro ⟨fault, hfault⟩ ⟨v, hv⟩
    cases hfault.symm.trans ((haccepts v).mpr hv)

example : (ofLiteral "version" (.text " 0001.2.3.0000065534\n")).toOption = some ⟨1, 2, 3, 65534⟩ := by
  decide +kernel

/-! ## More than the usual forms -/

/-- Whether a literal is a text, a list, a tuple or a quad. -/
def isUsualForm : Literal → Bool
  | .text _ | .list _ | .tuple _ | .quad .. => true
  | _ => false

/-- The range of the four numbers that begin with one. -/
def oneToFour : Literal :=
  .sequence ⟨some "range(1, 5)", "range(1, 5)", none⟩
    [.integer 1, .integer 2, .integer 3, .integer 4]

/-- A version text behind an information separator. -/
def separatedText : String :=
  "\x1c1.2.3.4"

/-- **A range of four numbers is accepted, though it is of none of the usual forms; and so is a text that does
not begin with a digit once the white space of Unicode is taken away from it.** -/
theorem ofLiteral_accepts_more :
    (isUsualForm oneToFour = false ∧ ofLiteral "version" oneToFour = .ok ⟨1, 2, 3, 4⟩) ∧
      (separatedText.toList.dropWhile isUnicodeSpace).head?.any isDigit = false ∧
        ofLiteral "version" (.text separatedText) = .ok ⟨1, 2, 3, 4⟩ := by
  refine ⟨⟨rfl, rfl⟩, by decide, ?_⟩
  have digit (c : Char) (n : Nat) (hc : isDigit c = true) (hn : digitValue c = n) (hrange : n ≤ 65534) :
      IsPart [c] n :=
    ⟨by simp, by simpa using hc, by simp, by simpa [valueOf] using hn, hrange⟩
  have letters : separatedText.toList =
      ['\x1c'] ++ (['1'] ++ '.' :: (['2'] ++ '.' :: (['3'] ++ '.' :: ['4']))) ++ [] := by decide
  exact ofText_of_spells (.text ['\x1c'] ['1'] ['2'] ['3'] ['4'] [] (by decide) rfl letters
    (digit '1' 1 rfl rfl (by decide)) (digit '2' 2 rfl rfl (by decide)) (digit '3' 3 rfl rfl (by decide))
    (digit '4' 4 rfl rfl (by decide)))

end Version

end ArtifactIdentity
