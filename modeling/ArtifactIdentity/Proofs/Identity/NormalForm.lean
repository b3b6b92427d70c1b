import ArtifactIdentity.Identity.Counterpart
import ArtifactIdentity.Identity.UniqueId
import ArtifactIdentity.Identity.Version
import ArtifactIdentity.Proofs.Text.Digits

/-!
# Normal forms of identity literals

A version and an identifier are kept in one spelling each, and that spelling is accepted again and read as
what it spells. What a rule of the identity has accepted is therefore in normal form: a version within the
range, the text of a number, the name of one artifact.
-/

namespace ArtifactIdentity

/-- A result is known by its value where the errors cannot be compared. -/
theorem eq_ok_of_toOption {ε α : Type} {x : Except ε α} {a : α} (h : x.toOption = some a) :
    x = .ok a := by
  cases x with
  | error e => cases h
  | ok b => exact congrArg Except.ok (Option.some.inj h)

/-! ## Identifiers -/

namespace IdNumber

open Text

theorem hyphen_not_mem_digits {cs : List Char} (h : ∀ c ∈ cs, isHexDigit c = true) : '-' ∉ cs :=
  fun hmem => absurd (h '-' hmem) (by decide)

theorem mem_of_mem_cut {lengths : List Nat} {cs piece : List Char} (h : piece ∈ cut lengths cs) :
    ∀ c ∈ piece, c ∈ cs := by
  induction lengths generalizing cs with
  | nil => simp [cut] at h
  | cons n lengths ih =>
    intro c hc
    rcases List.mem_cons.mp h with rfl | h
    · exact List.mem_of_mem_take hc
    · exact List.mem_of_mem_drop (ih h c hc)

theorem filter_joinWith {pieces : List (List Char)} (h : ∀ p ∈ pieces, '-' ∉ p) :
    (joinWith '-' pieces).filter (· ≠ '-') = pieces.flatten := by
  have keep : ∀ p ∈ pieces, p.filter (· ≠ '-') = p := by
    intro p hp
    refine List.filter_eq_self.mpr fun c hc => ?_
    have : c ≠ '-' := fun e => h p hp (e ▸ hc)
    simpa using this
  induction pieces with
  | nil => rfl
  | cons p pieces ih =>
    have hp := keep p (by simp)
    cases pieces with
    | nil => simpa [joinWith] using hp
    | cons next more =>
      have ih := ih (fun q hq => h q (by simp [hq])) (fun q hq => keep q (by simp [hq]))
      rw [joinWith_cons _ _ (by simp), List.filter_append, hp, List.filter_cons_of_neg (by simp), ih]
      rfl

/-- The pieces of the 32 digits of an identifier. -/
theorem cut_hexPadded (number : Nat) :
    (cut groups (hexPadded 32 number)).map List.length = groups ∧
      (cut groups (hexPadded 32 number)).flatten = hexPadded 32 number := by
  have hlen := length_hexPadded 32 number
  constructor
  · simp [cut, groups, hlen]
  · simp only [cut, groups, List.flatten_cons, List.flatten_nil, List.append_nil]
    -- The last cut takes all that is left.
    have hlast : ((((hexPadded 32 number).drop 8).drop 4).drop 4).drop 4 =
        (((((hexPadded 32 number).drop 8).drop 4).drop 4).drop 4).take 12 := by
      rw [List.take_of_length_le (by simp [hlen])]
    rw [← hlast]
    simp only [List.take_append_drop]

theorem length_flatten_groups {pieces : List (List Char)} (h : pieces.map List.length = groups) :
    pieces.flatten.length = 32 := by
  rw [List.length_flatten, h]
  rfl

/-- The groups and the hyphens between them are 36 characters. -/
theorem length_joinWith_groups {pieces : List (List Char)} (h : pieces.map List.length = groups) :
    (joinWith '-' pieces).length = 36 := by
  have hpieces : pieces.length = 5 := by
    rw [← List.length_map (f := List.length), h]
    rfl
  rw [length_joinWith, length_flatten_groups h, hpieces]

/-- **The canonical text of an identifier is read as the number it shows.** -/
theorem ofChars?_chars (n : Nat) : ofChars? (chars n) = some (n % Nat.pow 16 32) := by
  obtain ⟨hlengths, hflat⟩ := cut_hexPadded n
  have hmem : ∀ p ∈ cut groups (hexPadded 32 n), ∀ c ∈ p, isHexDigit c = true := by
    intro p hp c hc
    exact isHexDigit_of_mem_hexPadded (mem_of_mem_cut hp c hc)
  have hfree : ∀ p ∈ cut groups (hexPadded 32 n), '-' ∉ p := by
    intro p hp
    exact hyphen_not_mem_digits (hmem p hp)
  have hsplit : splitAt '-' (chars n) = cut groups (hexPadded 32 n) :=
    splitAt_joinWith '-' (by simp [cut, groups]) hfree
  have hcanonical : isCanonical (chars n) = true := by
    simp only [isCanonical, hsplit, Bool.and_eq_true, decide_eq_true_eq, List.all_eq_true]
    exact ⟨hlengths, hmem⟩
  have hnumber : number (chars n) = n % Nat.pow 16 32 := by
    rw [number, chars, filter_joinWith hfree, hflat, valueOf_hexPadded]
  rw [ofChars?, if_pos hcanonical, hnumber]

/-- Identifiers that differ by a multiple of 2^128 have one text. -/
theorem text_mod (n : Nat) : text (n % Nat.pow 16 32) = text n := by
  rw [text, text, chars, chars, hexPadded_mod]

end IdNumber

/-- **The text of an identifier is kept as it is.** -/
theorem UniqueId.ofLiteral_text (field : String) (n : Nat) :
    UniqueId.ofLiteral field (.text (IdNumber.text n)) = .ok (IdNumber.text n) := by
  have hread : IdNumber.ofChars? (IdNumber.text n).toList = some (n % Nat.pow 16 32) := by
    rw [IdNumber.text, String.toList_ofList, IdNumber.ofChars?_chars]
  simp only [UniqueId.ofLiteral, hread, IdNumber.text_mod]

/-- An accepted identifier is the text of a number. -/
theorem UniqueId.eq_text_of_ofLiteral {field id : String} {literal : Literal}
    (h : UniqueId.ofLiteral field literal = .ok id) : ∃ n, id = IdNumber.text n := by
  unfold UniqueId.ofLiteral at h
  split at h
  · rename_i n
    exact ⟨n, (Except.ok.inj h).symm⟩
  · split at h
    · rename_i n _
      exact ⟨n, (Except.ok.inj h).symm⟩
    · simp [refuse] at h
  · simp [refuse] at h

/-! ## Versions -/

namespace Version

open Text

/-- Every part of a version is within the range. -/
def InRange (v : Version) : Prop :=
  ∀ n ∈ v.components, n ≤ maxComponent

instance (v : Version) : Decidable v.InRange :=
  inferInstanceAs (Decidable (∀ n ∈ v.components, n ≤ maxComponent))

/-- The range said of the integers that the parts are shown as. -/
theorem inRange_iff_integers {v : Version} :
    v.InRange ↔ ∀ n ∈ [(v.major : Int), v.minor, v.patch, v.build], 0 ≤ n ∧ n ≤ 65534 := by
  simp only [InRange, components, maxComponent, List.forall_mem_cons, List.not_mem_nil, false_implies,
    implies_true, and_true]
  omega

theorem length_decimal_le_of_inRange {n : Nat} (h : n ≤ maxComponent) : (decimal n).length ≤ 5 :=
  length_decimal_le (by omega) (Nat.lt_of_le_of_lt h (by decide))

theorem isNumeral_decimal (n : Nat) : isNumeral (decimal n) = true := by
  have hne : (decimal n).isEmpty = false := by
    simp [decimal_ne_nil]
  simp [isNumeral, hne, all_isDigit_decimal]

theorem isOversized_decimal {n : Nat} (h : n ≤ maxComponent) : isOversized (decimal n) = false := by
  have hlen := length_decimal_le_of_inRange h
  -- No leading zeros are there to drop, but the length without them is bounded all the same.
  have hdrop : ((decimal n).dropWhile (· = '0')).length ≤ (decimal n).length :=
    (List.dropWhile_sublist _).length_le
  have hmax : (decimal maxComponent).length = 5 := by decide +kernel
  simp only [isOversized, hmax, decide_eq_false_iff_not]
  omega

theorem numbersOf_decimals {ns : List Nat} (h : ∀ n ∈ ns, n ≤ maxComponent) :
    numbersOf (ns.map decimal) = .ok (ns.map Int.ofNat) := by
  induction ns with
  | nil => rfl
  | cons n ns ih =>
    have hlen := length_decimal_le_of_inRange (h n (by simp))
    have hshort : ¬ maxDigits < (decimal n).length := by
      simp only [maxDigits]
      omega
    have ih := ih fun k hk => h k (by simp [hk])
    rw [List.map_cons, numbersOf, if_neg hshort, ih, valueOf_decimal]
    rfl

/-- Four numbers within the range are taken as they are. -/
theorem ofIntegers_components (field : String) (literal : Literal) {v : Version} (h : v.InRange) :
    ofIntegers field literal (v.components.map Int.ofNat) = .ok v := by
  obtain ⟨a, b, c, d⟩ := v
  have hnone : [(a : Int), b, c, d].find? (fun n => n < 0 || (maxComponent : Int) < n) = none := by
    refine List.find?_eq_none.mpr fun n hn => ?_
    obtain ⟨k, hk, rfl⟩ : ∃ k ∈ [a, b, c, d], (k : Int) = n := by
      simpa [eq_comm] using hn
    have := h k hk
    simp only [Bool.or_eq_true, decide_eq_true_eq, not_or]
    omega
  have hfind : [Int.ofNat a, Int.ofNat b, Int.ofNat c, Int.ofNat d].find?
      (fun n => n < 0 || (maxComponent : Int) < n) = none := hnone
  simp only [components, List.map_cons, List.map_nil, ofIntegers, hfind]
  rfl

theorem not_mem_decimal_dot (n : Nat) : '.' ∉ decimal n := by
  intro h
  have := isDigit_of_mem_decimal h
  simp [isDigit] at this

/-- **The dotted text of a version within the range is read as that version.** -/
theorem ofText_text (field : String) {v : Version} (h : v.InRange) : ofText field v.text = .ok v := by
  have hpieces : ∀ p ∈ v.components.map decimal, '.' ∉ p := by
    intro p hp
    obtain ⟨n, -, rfl⟩ := List.mem_map.mp hp
    exact not_mem_decimal_dot n
  have htrim : trim v.text.toList = joinWith '.' (v.components.map decimal) := by
    rw [text, String.toList_ofList]
    refine trim_eq_self fun c hc => ?_
    rcases mem_joinWith hc with rfl | ⟨p, hp, hc⟩
    · decide
    · obtain ⟨n, -, rfl⟩ := List.mem_map.mp hp
      exact isBlank_of_isDigit (isDigit_of_mem_decimal hc)
  have hsplit : splitAt '.' (trim v.text.toList) = v.components.map decimal := by
    rw [htrim]
    exact splitAt_joinWith '.' (by simp [components]) hpieces
  have hnumerals : (v.components.map decimal).all isNumeral = true := by
    simp [isNumeral_decimal]
  have hsizes : (v.components.map decimal).any isOversized = false := by
    simp only [List.any_map, List.any_eq_false, Function.comp_apply, Bool.not_eq_true]
    intro n hn
    exact isOversized_decimal (h n hn)
  simp only [ofText, hsplit, hnumerals, hsizes, numbersOf_decimals h]
  exact ofIntegers_components field _ h

theorem ofLiteral_text (field : String) {v : Version} (h : v.InRange) :
    ofLiteral field (.text v.text) = .ok v := by
  rw [ofLiteral]
  exact ofText_text field h

theorem inRange_of_ofIntegers {field : String} {literal : Literal} {ns : List Int} {v : Version}
    (h : ofIntegers field literal ns = .ok v) : v.InRange := by
  unfold ofIntegers at h
  split at h
  · rename_i a b c d
    split at h
    · simp [refuse] at h
    · rename_i hnone
      have hle : ∀ n ∈ [a, b, c, d], n ≤ (maxComponent : Int) := by
        intro n hn
        have := List.find?_eq_none.mp hnone n hn
        simp only [Bool.or_eq_true, decide_eq_true_eq, not_or] at this
        omega
      obtain rfl := Except.ok.inj h
      intro n hn
      obtain ⟨k, hk, rfl⟩ : ∃ k ∈ [a, b, c, d], k.toNat = n := by
        simpa [components, eq_comm] using hn
      have := hle k hk
      omega
  · simp [refuse] at h

theorem inRange_of_ofLiteral {field : String} {literal : Literal} {v : Version}
    (h : ofLiteral field literal = .ok v) : v.InRange := by
  unfold ofLiteral at h
  split at h
  · rename_i s
    simp only [ofText] at h
    split at h
    · simp [refuse] at h
    · split at h
      · simp [refuse] at h
      · cases hn : numbersOf (splitAt '.' (trim s.toList)) with
        | error e =>
          rw [hn] at h
          cases h
        | ok ns =>
          rw [hn] at h
          exact inRange_of_ofIntegers h
  · split at h
    · simp [refuse] at h
    · split at h
      · simp [refuse] at h
      · exact inRange_of_ofIntegers h

end Version

/-! ## Counterparts -/

namespace Counterpart

/-- A name that stands for one artifact. -/
def IsName (s : String) : Prop :=
  s ≠ "" ∧ ∀ c ∈ s.toList, isForbidden c = false

theorem ofLiteral_name (field : String) {s : String} (h : IsName s) :
    ofLiteral field (.text s) = .ok s := by
  have hclean : s.toList.any isForbidden = false := by
    simpa using h.2
  simp [ofLiteral, h.1, hclean]

theorem isName_of_ofLiteral {field s : String} {literal : Literal}
    (h : ofLiteral field literal = .ok s) : IsName s := by
  unfold ofLiteral at h
  split at h
  · split at h
    · simp [refuse] at h
    · rename_i hne
      split at h
      · simp [refuse] at h
      · rename_i hclean
        obtain rfl := Except.ok.inj h
        exact ⟨hne, by simpa using hclean⟩
  · simp [refuse] at h

end Counterpart

end ArtifactIdentity
