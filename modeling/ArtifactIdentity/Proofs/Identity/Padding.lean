import ArtifactIdentity.Proofs.Identity.VersionGrammar

/-!
# Versions with too many zeros

A text that is no version is refused as malformed, with the field and the text, but for one case. The check of
the number of digits does not count the zeros in front of a part, and the limit on what is read as an integer
does. A text whose parts all pass the check, one of them with so many zeros that it is beyond the limit, is
neither read nor refused: the limit is the fault that comes out.
-/

namespace ArtifactIdentity.Version

open Text

/-- A part that passes the checks of its digits: at most five stand behind the zeros in front. -/
structure IsShort (cs : List Char) : Prop where
  nonempty : cs ≠ []
  digits : ∀ c ∈ cs, isDigit c = true
  short : ∃ zeros rest, cs = List.replicate zeros '0' ++ rest ∧ rest.length ≤ 5

/-- A text of such parts, with white space around the whole, where the first part of more than 4300 digits has
`n` of them. How many parts there are does not matter. -/
inductive IsOverpadded : List Char → Nat → Prop
  | text (before after part : List Char) (first rest : List (List Char)) (hbefore : isBlankText before = true)
      (hafter : isBlankText after = true) (hshort : ∀ cs ∈ first ++ part :: rest, IsShort cs)
      (hfirst : ∀ cs ∈ first, cs.length ≤ 4300) (hlong : 4300 < part.length) :
      IsOverpadded (before ++ joinWith '.' (first ++ part :: rest) ++ after) part.length

variable {field : String} {literal : Literal} {cs : List Char} {parts : List (List Char)} {fault : Fault}
  {n : Nat}

/-! ## The checks of a part -/

theorem isOversized_eq_false_iff :
    isOversized cs = false ↔ ∃ zeros rest, cs = List.replicate zeros '0' ++ rest ∧ rest.length ≤ 5 := by
  have hmax : (decimal maxComponent).length = 5 := by decide +kernel
  rw [isOversized, decide_eq_false_iff_not, hmax]
  constructor
  · intro hfew
    refine ⟨(cs.takeWhile (· = '0')).length, cs.dropWhile (· = '0'), ?_, by omega⟩
    have hzeros : List.replicate (cs.takeWhile (· = '0')).length '0' = cs.takeWhile (· = '0') := by
      refine (List.eq_replicate_of_mem ?_).symm
      intro c hc
      exact of_decide_eq_true (List.all_eq_true.mp List.all_takeWhile c hc)
    rw [hzeros, List.takeWhile_append_dropWhile]
  · rintro ⟨zeros, rest, rfl, hrest⟩
    have hall : ∀ c ∈ List.replicate zeros '0', decide (c = '0') = true := by
      intro c hc
      exact decide_eq_true (List.eq_of_mem_replicate hc)
    have hdrop := (List.dropWhile_sublist (l := rest) (· = '0')).length_le
    rw [List.dropWhile_append_of_pos hall]
    omega

theorem isShort_iff : IsShort cs ↔ isNumeral cs = true ∧ isOversized cs = false := by
  rw [isNumeral_iff, isOversized_eq_false_iff]
  constructor
  · intro h
    exact ⟨⟨h.nonempty, h.digits⟩, h.short⟩
  · rintro ⟨⟨hne, hdigits⟩, hshort⟩
    exact ⟨hne, hdigits, hshort⟩

theorem IsShort.not_mem_dot (h : IsShort cs) : '.' ∉ cs := by
  intro hdot
  exact absurd (h.digits _ hdot) (by decide)

theorem IsShort.not_isBlank (h : IsShort cs) : ∀ c ∈ cs, isBlank c = false :=
  fun c hc => isBlank_of_isDigit (h.digits c hc)

/-! ## The limit on digits -/

/-- Of several numerals the first that is beyond the limit on digits is the fault. -/
theorem numbersOf_eq_error_iff :
    numbersOf parts = .error fault ↔ ∃ first part rest, parts = first ++ part :: rest ∧
      (∀ cs ∈ first, cs.length ≤ maxDigits) ∧ maxDigits < part.length ∧
        fault = .digits (.reading part.length) := by
  induction parts with
  | nil => simp [numbersOf]
  | cons cs more ih =>
    rw [numbersOf]
    by_cases hlong : maxDigits < cs.length
    · rw [if_pos hlong]
      constructor
      · intro h
        exact ⟨[], cs, more, rfl, by simp, hlong, (Except.error.inj h).symm⟩
      · rintro ⟨first, part, rest, hparts, hfirst, -, rfl⟩
        cases first with
        | nil =>
          obtain ⟨rfl, -⟩ := List.cons.inj hparts
          rfl
        | cons cs' first =>
          obtain ⟨rfl, -⟩ := List.cons.inj hparts
          have := hfirst cs List.mem_cons_self
          omega
    · rw [if_neg hlong]
      have hlater : (numbersOf more).map ((valueOf 10 cs : Int) :: ·) = .error fault ↔
          numbersOf more = .error fault := by
        cases numbersOf more <;> simp [Except.map]
      rw [hlater, ih]
      constructor
      · rintro ⟨first, part, rest, rfl, hfirst, hpart⟩
        exact ⟨cs :: first, part, rest, rfl, List.forall_mem_cons.mpr ⟨by omega, hfirst⟩, hpart⟩
      · rintro ⟨first, part, rest, hparts, hfirst, hpart, hfault⟩
        cases first with
        | nil =>
          obtain ⟨rfl, -⟩ := List.cons.inj hparts
          exact absurd hpart hlong
        | cons cs' first =>
          obtain ⟨rfl, rfl⟩ := List.cons.inj hparts
          exact ⟨first, part, rest, rfl, (List.forall_mem_cons.mp hfirst).2, hpart, hfault⟩

/-- Integers make a version or are refused. -/
theorem ofIntegers_cases (field : String) (literal : Literal) (ns : List Int) :
    (∃ v, ofIntegers field literal ns = .ok v) ∨
      ∃ reason, ofIntegers field literal ns = refuse field literal reason := by
  unfold ofIntegers
  split
  · split
    · exact Or.inr ⟨_, rfl⟩
    · exact Or.inl ⟨_, rfl⟩
  · exact Or.inr ⟨_, rfl⟩

/-! ## Texts -/

theorem refuse_text (field s reason : String) :
    (refuse field (.text s) reason : Except Fault Version) = .error (.malformed ⟨field, .text s, reason⟩) :=
  congrArg Except.error (Fault.of_writable rfl)

/-- A text is read, or refused, or the number of a part that passes the checks is beyond the limit. -/
theorem ofText_cases (field s : String) :
    (∃ v, ofText field s = .ok v) ∨
      (∃ reason, ofText field s = .error (.malformed ⟨field, .text s, reason⟩)) ∨
      ∃ fault, ofText field s = .error fault ∧ numbersOf (splitAt '.' (trim s.toList)) = .error fault ∧
        ∀ cs ∈ splitAt '.' (trim s.toList), IsShort cs := by
  simp only [ofText]
  split
  · exact Or.inr (Or.inl ⟨_, refuse_text field s _⟩)
  rename_i hnumerals
  split
  · exact Or.inr (Or.inl ⟨_, refuse_text field s _⟩)
  rename_i hsizes
  have hshort : ∀ cs ∈ splitAt '.' (trim s.toList), IsShort cs := by
    intro cs hcs
    rw [Bool.not_eq_true, Bool.not_eq_false', List.all_eq_true] at hnumerals
    rw [Bool.not_eq_true, List.any_eq_false] at hsizes
    exact isShort_iff.mpr ⟨hnumerals cs hcs, Bool.eq_false_iff.mpr (hsizes cs hcs)⟩
  cases hnumbers : numbersOf (splitAt '.' (trim s.toList)) with
  | error fault => exact Or.inr (Or.inr ⟨fault, rfl, rfl, hshort⟩)
  | ok ns =>
    rcases ofIntegers_cases field (.text s) ns with ⟨v, hv⟩ | ⟨reason, hreason⟩
    · exact Or.inl ⟨v, hv⟩
    · refine Or.inr (Or.inl ⟨reason, ?_⟩)
      rw [← refuse_text, ← hreason]
      rfl

/-- What is left of an overpadded text without the white space around it are its parts. -/
theorem splitAt_trim_shorts {before after : List Char} (hbefore : isBlankText before = true)
    (hafter : isBlankText after = true) (hne : parts ≠ []) (hshort : ∀ cs ∈ parts, IsShort cs) :
    splitAt '.' (trim (before ++ joinWith '.' parts ++ after)) = parts := by
  have hcore : ∀ c ∈ joinWith '.' parts, isBlank c = false := by
    intro c hc
    rcases mem_joinWith hc with rfl | ⟨cs, hcs, hc⟩
    · decide
    · exact (hshort cs hcs).not_isBlank c hc
  rw [trim_padded hbefore hafter hcore]
  exact splitAt_joinWith '.' hne fun cs hcs => (hshort cs hcs).not_mem_dot

theorem ofText_of_isOverpadded {s : String} (h : IsOverpadded s.toList n) :
    ofText field s = .error (.digits (.reading n)) := by
  generalize hs : s.toList = cs at h
  cases h with
  | text before after part first rest hbefore hafter hshort hfirst hlong =>
    have hparts := splitAt_trim_shorts hbefore hafter (by simp) hshort
    have hnumerals : (first ++ part :: rest).all isNumeral = true := by
      rw [List.all_eq_true]
      exact fun cs hcs => (isShort_iff.mp (hshort cs hcs)).1
    have hsizes : (first ++ part :: rest).any isOversized = false := by
      rw [List.any_eq_false]
      exact fun cs hcs => Bool.eq_false_iff.mp (isShort_iff.mp (hshort cs hcs)).2
    have hnumbers : numbersOf (first ++ part :: rest) = .error (.digits (.reading part.length)) :=
      numbersOf_eq_error_iff.mpr ⟨first, part, rest, rfl, hfirst, hlong, rfl⟩
    simp only [ofText, hs, hparts, hnumerals, hsizes, hnumbers]
    rfl

/-- **The limit on digits is the fault of just the texts that are overpadded.** -/
theorem ofText_eq_digits_iff {s : String} {limit : DigitLimit} :
    ofText field s = .error (.digits limit) ↔ ∃ n, limit = .reading n ∧ IsOverpadded s.toList n := by
  constructor
  · intro h
    rcases ofText_cases field s with ⟨v, hv⟩ | ⟨reason, hreason⟩ | ⟨fault, hfault, hnumbers, hshort⟩
    · cases hv.symm.trans h
    · cases hreason.symm.trans h
    · obtain rfl : fault = .digits limit := Except.error.inj (hfault.symm.trans h)
      rcases numbersOf_eq_error_iff.mp hnumbers with ⟨first, part, rest, hparts, hfirst, hlong, hlimit⟩
      rcases exists_padding s.toList with ⟨before, after, hbefore, hafter, hs⟩
      rw [← joinWith_splitAt '.' (trim s.toList), hparts] at hs
      rw [hparts] at hshort
      refine ⟨part.length, Fault.digits.inj hlimit, ?_⟩
      rw [hs]
      exact .text before after part first rest hbefore hafter hshort hfirst hlong
  · rintro ⟨n, rfl, h⟩
    exact ofText_of_isOverpadded h

/-- **A text is read as a version, or refused as malformed with the field and the text itself, or its zeros are
beyond the limit on digits, and nothing else comes out. The last is the case of just the texts that pass the
checks of their digits and have a part with too many zeros in front.** -/
theorem ofLiteral_text_ends (field s : String) :
    ((∃ v, ofLiteral field (.text s) = .ok v) ∨
        (∃ reason, ofLiteral field (.text s) = .error (.malformed ⟨field, .text s, reason⟩)) ∨
        ∃ n, ofLiteral field (.text s) = .error (.digits (.reading n))) ∧
      ∀ limit, ofLiteral field (.text s) = .error (.digits limit) ↔
        ∃ n, limit = .reading n ∧ IsOverpadded s.toList n := by
  constructor
  · rcases ofText_cases field s with hok | hmalformed | ⟨fault, hfault, hnumbers, -⟩
    · exact Or.inl hok
    · exact Or.inr (Or.inl hmalformed)
    · rcases numbersOf_eq_error_iff.mp hnumbers with ⟨_, part, _, _, _, _, rfl⟩
      exact Or.inr (Or.inr ⟨part.length, hfault⟩)
  · intro limit
    exact ofText_eq_digits_iff

/-- The text of the version 1.2.3.4 with zeros in front. -/
def paddedText (zeros : Nat) : String :=
  String.ofList (List.replicate zeros '0' ++ "1.2.3.4".toList)

theorem isOverpadded_paddedText {zeros : Nat} (h : 4300 ≤ zeros) :
    IsOverpadded (paddedText zeros).toList (zeros + 1) := by
  have hdigit {c : Char} (hc : isDigit c = true) : IsShort [c] := by
    refine ⟨by simp, ?_, 0, [c], rfl, by simp⟩
    intro d hd
    rw [List.mem_singleton.mp hd]
    exact hc
  have hpadded : IsShort (List.replicate zeros '0' ++ ['1']) := by
    refine ⟨by simp, ?_, zeros, ['1'], rfl, by simp⟩
    intro c hc
    rcases List.mem_append.mp hc with hc | hc
    · rw [List.eq_of_mem_replicate hc]
      decide
    · rw [List.mem_singleton.mp hc]
      decide
  have hall : ∀ cs ∈ [] ++ (List.replicate zeros '0' ++ ['1']) :: [['2'], ['3'], ['4']], IsShort cs := by
    simp only [List.nil_append, List.forall_mem_cons]
    exact ⟨hpadded, hdigit (by decide), hdigit (by decide), hdigit (by decide), by simp⟩
  have hlength : (List.replicate zeros '0' ++ ['1']).length = zeros + 1 := by simp
  have hover := IsOverpadded.text [] [] _ [] _ (by decide) (by decide) hall (by simp) (by omega)
  rw [hlength] at hover
  have hs : (paddedText zeros).toList =
      [] ++ joinWith '.' ([] ++ (List.replicate zeros '0' ++ ['1']) :: [['2'], ['3'], ['4']]) ++ [] := by
    rw [paddedText, String.toList_ofList]
    simp [joinWith]
  rw [hs]
  exact hover

/-- With 4300 zeros in front it is neither read nor refused as malformed. -/
theorem ofLiteral_paddedText :
    ofLiteral "version" (.text (paddedText 4300)) = .error (.digits (.reading 4301)) := by
  have hover := isOverpadded_paddedText (Nat.le_refl 4300)
  rw [ofLiteral, ofText_of_isOverpadded hover]

end ArtifactIdentity.Version
