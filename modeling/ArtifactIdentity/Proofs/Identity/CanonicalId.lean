import ArtifactIdentity.Proofs.Identity.NormalForm
import Mathlib.Data.List.Induction
import Mathlib.Data.Nat.Digits.Defs

/-!
# The canonical text of an identifier

A text is accepted as an identifier where it is 32 hexadecimal digits in groups of 8, 4, 4, 4 and 12 with hyphens
between them. It is read as a number and the number is printed again. As the digits are as many as the printer
pads to, what comes out is the text that went in, in lower case, and it tells the number.
-/

namespace ArtifactIdentity

namespace Text

/-- The hexadecimal digits in lower case, each at the place that is its value. -/
def lowerDigits : List Char :=
  ['0', '1', '2', '3', '4', '5', '6', '7', '8', '9', 'a', 'b', 'c', 'd', 'e', 'f']

/-- The ASCII hexadecimal digits of both cases. -/
def hexDigits : List Char :=
  lowerDigits ++ ['A', 'B', 'C', 'D', 'E', 'F']

/-- The value of a digit of either case. What is no digit has none. -/
def hexValue? (c : Char) : Option Nat :=
  lowerDigits.idxOf? c.toLower

variable {c : Char} {cs : List Char}

/-! ## Digits of both cases -/

/-- A character between two others is one of as many as stand between them. -/
theorem exists_offset {low high : Char} (hlow : low ≤ c) (hhigh : c ≤ high) :
    ∃ m ≤ high.toNat - low.toNat, c = Char.ofNat (low.toNat + m) := by
  have hlow : low.toNat ≤ c.toNat := hlow
  have hhigh : c.toNat ≤ high.toNat := hhigh
  refine ⟨c.toNat - low.toNat, by omega, ?_⟩
  rw [show low.toNat + (c.toNat - low.toNat) = c.toNat by omega]
  exact (Char.ofNat_toNat c).symm

theorem mem_hexDigits_iff : c ∈ hexDigits ↔ isHexDigit c = true := by
  constructor
  · have hall : hexDigits.all isHexDigit = true := by decide
    exact List.all_eq_true.mp hall c
  · intro h
    -- Only the characters of one range are run through, not all there are.
    simp only [isHexDigit, isDigit, Bool.or_eq_true, Bool.and_eq_true, decide_eq_true_eq] at h
    rcases h with (⟨hlow, hhigh⟩ | ⟨hlow, hhigh⟩) | ⟨hlow, hhigh⟩
    · obtain ⟨m, hm, rfl⟩ := exists_offset hlow hhigh
      have hall : ∀ m ≤ 9, Char.ofNat (48 + m) ∈ hexDigits := by decide
      exact hall m hm
    · obtain ⟨m, hm, rfl⟩ := exists_offset hlow hhigh
      have hall : ∀ m ≤ 5, Char.ofNat (97 + m) ∈ hexDigits := by decide
      exact hall m hm
    · obtain ⟨m, hm, rfl⟩ := exists_offset hlow hhigh
      have hall : ∀ m ≤ 5, Char.ofNat (65 + m) ∈ hexDigits := by decide
      exact hall m hm

/-- What is checked of every digit in the list holds of each digit. -/
theorem check_of_isHexDigit (check : Char → Bool) (hall : hexDigits.all check = true)
    (h : isHexDigit c = true) : check c = true :=
  List.all_eq_true.mp hall c (mem_hexDigits_iff.mpr h)

theorem digitValue_lt_sixteen (h : isHexDigit c = true) : digitValue c < 16 :=
  of_decide_eq_true (check_of_isHexDigit (fun c => decide (digitValue c < 16)) (by decide) h)

/-- The digit of the value of a digit is that digit in lower case. -/
theorem digitOf_digitValue_eq_toLower (h : isHexDigit c = true) : digitOf (digitValue c) = c.toLower :=
  of_decide_eq_true (check_of_isHexDigit (fun c => decide (digitOf (digitValue c) = c.toLower)) (by decide) h)

theorem hexValue?_of_isHexDigit (h : isHexDigit c = true) : hexValue? c = some (digitValue c) :=
  of_decide_eq_true (check_of_isHexDigit (fun c => decide (hexValue? c = some (digitValue c))) (by decide) h)

/-! ## Rows of digits -/

/-- **Printing the value of a row of digits, padded to their number, gives the row in lower case.** -/
theorem hexPadded_valueOf (h : ∀ c ∈ cs, isHexDigit c = true) :
    hexPadded cs.length (valueOf 16 cs) = cs.map Char.toLower := by
  induction cs using List.reverseRecOn with
  | nil => rfl
  | append_singleton cs c ih =>
    have hc : isHexDigit c = true := h c (by simp)
    have hlt := digitValue_lt_sixteen hc
    have hquotient : (valueOf 16 cs * 16 + digitValue c) / 16 = valueOf 16 cs := by omega
    have hremainder : (valueOf 16 cs * 16 + digitValue c) % 16 = digitValue c := by omega
    rw [List.length_append, List.length_singleton, valueOf_append_singleton, hexPadded, hquotient, hremainder,
      ih fun d hd => h d (by simp [hd]), digitOf_digitValue_eq_toLower hc, List.map_append,
      List.map_singleton]

/-- The value of a row of digits is the sum of the digits times powers of the base. -/
theorem valueOf_eq_ofDigits (base : Nat) (cs : List Char) :
    valueOf base cs = Nat.ofDigits base (cs.map digitValue).reverse := by
  induction cs using List.reverseRecOn with
  | nil => rfl
  | append_singleton cs c ih =>
    rw [valueOf_append_singleton, ih, List.map_append, List.map_singleton, List.reverse_append,
      List.reverse_singleton, List.singleton_append, Nat.ofDigits_cons]
    ring

theorem valueOf_lt (h : ∀ c ∈ cs, isHexDigit c = true) : valueOf 16 cs < 16 ^ cs.length := by
  have hdigits : ∀ n ∈ (cs.map digitValue).reverse, n < 16 := by
    intro n hn
    obtain ⟨c, hc, rfl⟩ := List.mem_map.mp (List.mem_reverse.mp hn)
    exact digitValue_lt_sixteen (h c hc)
  have hlt := Nat.ofDigits_lt_base_pow_length (by decide) hdigits
  rwa [List.length_reverse, List.length_map, ← valueOf_eq_ofDigits] at hlt

/-- A row of pieces changed character by character. -/
theorem map_joinWith (f : Char → Char) (sep : Char) (pieces : List (List Char)) :
    (joinWith sep pieces).map f = joinWith (f sep) (pieces.map (List.map f)) := by
  induction pieces with
  | nil => rfl
  | cons piece pieces ih =>
    cases pieces with
    | nil => rfl
    | cons next more =>
      rw [joinWith_cons _ _ (List.cons_ne_nil _ _), List.map_append, List.map_cons, ih]
      rfl

end Text

namespace IdNumber

open Text

/-- Groups of 8, 4, 4, 4 and 12 hexadecimal digits with a hyphen between two groups, and nothing else. -/
def IsHyphenated (s : String) : Prop :=
  ∃ pieces, s.toList = joinWith '-' pieces ∧ pieces.map List.length = [8, 4, 4, 4, 12] ∧
    ∀ piece ∈ pieces, ∀ c ∈ piece, c ∈ hexDigits

/-- The number that a text denotes: the sum of its digits, each times sixteen to the number of digits behind it.
What is no digit does not count. -/
def denoted (s : String) : Nat :=
  Nat.ofDigits 16 (s.toList.filterMap hexValue?).reverse

variable {s t : String} {cs : List Char} {pieces : List (List Char)} {m n : Nat}

/-! ## Groups -/

/-- Cutting puts pieces apart again that stand in a row. -/
theorem cut_flatten (pieces : List (List Char)) : cut (pieces.map List.length) pieces.flatten = pieces := by
  induction pieces with
  | nil => rfl
  | cons piece pieces ih =>
    rw [List.map_cons, List.flatten_cons, cut, List.take_left, List.drop_left, ih]

/-- **The check of the canonical form accepts the hyphenated texts.** -/
theorem isCanonical_iff : isCanonical s.toList = true ↔ IsHyphenated s := by
  simp only [isCanonical, Bool.and_eq_true, decide_eq_true_eq, List.all_eq_true, IsHyphenated,
    mem_hexDigits_iff]
  constructor
  · rintro ⟨hlengths, hdigits⟩
    exact ⟨splitAt '-' s.toList, (joinWith_splitAt '-' s.toList).symm, hlengths, hdigits⟩
  · rintro ⟨pieces, hs, hlengths, hdigits⟩
    have hne : pieces ≠ [] := by
      rintro rfl
      cases hlengths
    have hsplit : splitAt '-' s.toList = pieces := by
      rw [hs]
      exact splitAt_joinWith '-' hne fun p hp => hyphen_not_mem_digits (hdigits p hp)
    rw [hsplit]
    exact ⟨hlengths, hdigits⟩

theorem IsHyphenated.length (h : IsHyphenated s) : s.length = 36 := by
  obtain ⟨pieces, hs, hlengths, -⟩ := h
  rw [← String.length_toList, hs]
  exact length_joinWith_groups hlengths

/-! ## The number of a text -/

/-- The digits of the groups are all that is read of a text. -/
theorem IsHyphenated.number_eq (h : IsHyphenated s) :
    ∃ pieces, s.toList = joinWith '-' pieces ∧ pieces.map List.length = groups ∧
      (∀ c ∈ pieces.flatten, isHexDigit c = true) ∧ number s.toList = valueOf 16 pieces.flatten := by
  obtain ⟨pieces, hs, hlengths, hdigits⟩ := h
  simp only [mem_hexDigits_iff] at hdigits
  refine ⟨pieces, hs, hlengths, ?_, ?_⟩
  · intro c hc
    obtain ⟨piece, hpiece, hc⟩ := List.mem_flatten.mp hc
    exact hdigits piece hpiece c hc
  · rw [hs, number, filter_joinWith fun p hp => hyphen_not_mem_digits (hdigits p hp)]

theorem filterMap_hexValue? (h : ∀ c ∈ cs, c = '-' ∨ isHexDigit c = true) :
    cs.filterMap hexValue? = (cs.filter (· ≠ '-')).map digitValue := by
  induction cs with
  | nil => rfl
  | cons c cs ih =>
    have ih := ih fun d hd => h d (List.mem_cons_of_mem c hd)
    rcases h c List.mem_cons_self with rfl | hc
    · have hnone : hexValue? '-' = none := by decide
      rw [List.filterMap_cons_none hnone, ih, List.filter_cons_of_neg (by simp)]
    · have hne : c ≠ '-' := by
        rintro rfl
        exact absurd hc (by decide)
      rw [List.filterMap_cons_some (hexValue?_of_isHexDigit hc), ih, List.filter_cons_of_pos (by simpa using hne),
        List.map_cons]

/-- **The number that is read is the number that the text denotes.** -/
theorem number_eq_denoted (h : IsHyphenated s) : number s.toList = denoted s := by
  have hchars : ∀ c ∈ s.toList, c = '-' ∨ isHexDigit c = true := by
    obtain ⟨pieces, hs, -, hdigits⟩ := h
    intro c hc
    rw [hs] at hc
    rcases mem_joinWith hc with hc | ⟨piece, hpiece, hc⟩
    · exact Or.inl hc
    · exact Or.inr (mem_hexDigits_iff.mp (hdigits piece hpiece c hc))
  rw [number, valueOf_eq_ofDigits, denoted, filterMap_hexValue? hchars]

theorem denoted_lt (h : IsHyphenated s) : denoted s < 2 ^ 128 := by
  obtain ⟨pieces, -, hlengths, hdigits, hnumber⟩ := h.number_eq
  have hlt := valueOf_lt hdigits
  rw [length_flatten_groups hlengths, ← hnumber, number_eq_denoted h] at hlt
  exact hlt

/-- **The canonical text of the number of a hyphenated text is that text in lower case.** -/
theorem text_number (h : IsHyphenated s) : text (number s.toList) = s.toLower := by
  obtain ⟨pieces, hs, hlengths, hdigits, hnumber⟩ := h.number_eq
  have hlower : (pieces.map (List.map Char.toLower)).map List.length = groups := by
    simp only [List.map_map, Function.comp_def, List.length_map, hlengths]
  have hcut : cut groups (hexPadded 32 (valueOf 16 pieces.flatten)) =
      pieces.map (List.map Char.toLower) := by
    rw [← length_flatten_groups hlengths, hexPadded_valueOf hdigits, List.map_flatten, ← hlower]
    exact cut_flatten _
  have hhyphen : '-'.toLower = '-' := by decide
  have hlowered : s.toLower.toList = s.toList.map Char.toLower := String.toList_map
  rw [← String.toList_inj, text, String.toList_ofList, chars, hnumber, hcut, hlowered, hs, map_joinWith,
    hhyphen]

/-- **Numbers of 128 bits are told by their canonical texts.** -/
theorem text_eq_text_iff (hm : m < 2 ^ 128) (hn : n < 2 ^ 128) : text m = text n ↔ m = n := by
  have hpow : Nat.pow 16 32 = 2 ^ 128 := rfl
  constructor
  · intro htext
    have hchars : chars m = chars n := by
      rw [text, text, ← String.toList_inj, String.toList_ofList, String.toList_ofList] at htext
      exact htext
    have hread := ofChars?_chars m
    rw [hchars, ofChars?_chars, hpow, Nat.mod_eq_of_lt hm, Nat.mod_eq_of_lt hn] at hread
    exact (Option.some.inj hread).symm
  · rintro rfl
    rfl

end IdNumber

namespace UniqueId

open IdNumber

variable {field s t id : String}

/-- **A text is accepted where it is hyphenated, and what is kept of it is the text in lower case.** -/
theorem ofLiteral_text_eq_ok_iff :
    ofLiteral field (.text s) = .ok id ↔ IsHyphenated s ∧ id = s.toLower := by
  rw [← isCanonical_iff]
  cases hcanonical : isCanonical s.toList with
  | true =>
    have hread : ofChars? s.toList = some (number s.toList) := by rw [ofChars?, if_pos hcanonical]
    simp only [ofLiteral, hread, text_number (isCanonical_iff.mp hcanonical), Except.ok.injEq, true_and]
    exact eq_comm
  | false =>
    have hread : ofChars? s.toList = none := by rw [ofChars?, if_neg (by simp [hcanonical])]
    simp [ofLiteral, hread, refuse]

/-- **A text is accepted as an identifier just where it is 36 characters, hexadecimal digits in their groups with
hyphens between them. What is kept is the text in lower case, which is kept again as it is. It tells the number
of 128 bits that the text denotes: the identifier of that number, and no other, has this text, and two accepted
texts are kept alike just where they denote one number.** -/
theorem accepts_hyphenated (field s : String) :
    ((∃ id, ofLiteral field (.text s) = .ok id) ↔ s.length = 36 ∧ IsHyphenated s) ∧
    (∀ id, ofLiteral field (.text s) = .ok id →
      id = s.toLower ∧ ofLiteral field (.text id) = .ok id ∧ denoted s < 2 ^ 128 ∧
        ∀ n < 2 ^ 128, ofLiteral field (.uuid n) = .ok id ↔ n = denoted s) ∧
    ∀ t id id', ofLiteral field (.text s) = .ok id → ofLiteral field (.text t) = .ok id' →
      (id = id' ↔ denoted s = denoted t) := by
  have hkept {s id : String} (h : ofLiteral field (.text s) = .ok id) :
      IsHyphenated s ∧ id = text (denoted s) := by
    obtain ⟨hs, rfl⟩ := ofLiteral_text_eq_ok_iff.mp h
    exact ⟨hs, by rw [← number_eq_denoted hs, text_number hs]⟩
  refine ⟨⟨?_, ?_⟩, ?_, ?_⟩
  · rintro ⟨id, h⟩
    exact ⟨(hkept h).1.length, (hkept h).1⟩
  · rintro ⟨-, hs⟩
    exact ⟨s.toLower, ofLiteral_text_eq_ok_iff.mpr ⟨hs, rfl⟩⟩
  · intro id h
    obtain ⟨hs, hid⟩ := hkept h
    refine ⟨(ofLiteral_text_eq_ok_iff.mp h).2, ?_, denoted_lt hs, fun n hn => ?_⟩
    · rw [hid]
      exact ofLiteral_text field (denoted s)
    · rw [ofLiteral, hid, Except.ok.injEq]
      exact text_eq_text_iff hn (denoted_lt hs)
  · intro t id id' h h'
    obtain ⟨hs, rfl⟩ := hkept h
    obtain ⟨ht, rfl⟩ := hkept h'
    exact text_eq_text_iff (denoted_lt hs) (denoted_lt ht)

/-- A text in upper case with zeros in front is kept in lower case, as the identifier of its number is. -/
theorem upper_case_kept :
    ofLiteral "unique_id" (.text "00DB45A8-F922-456A-A819-7B3C6E5E03BA") =
        .ok "00db45a8-f922-456a-a819-7b3c6e5e03ba" ∧
      ofLiteral "unique_id" (.text "00db45a8-f922-456a-a819-7b3c6e5e03ba") =
        .ok "00db45a8-f922-456a-a819-7b3c6e5e03ba" ∧
      ofLiteral "unique_id" (.uuid 0xdb45a8f922456aa8197b3c6e5e03ba) =
        .ok "00db45a8-f922-456a-a819-7b3c6e5e03ba" ∧
      denoted "00DB45A8-F922-456A-A819-7B3C6E5E03BA" = denoted "00db45a8-f922-456a-a819-7b3c6e5e03ba" := by
  have hupper : ofLiteral "unique_id" (.text "00DB45A8-F922-456A-A819-7B3C6E5E03BA") =
      .ok "00db45a8-f922-456a-a819-7b3c6e5e03ba" := eq_ok_of_toOption (by decide +kernel)
  obtain ⟨-, hkept, htold⟩ := accepts_hyphenated "unique_id" "00DB45A8-F922-456A-A819-7B3C6E5E03BA"
  obtain ⟨-, hagain, -, hnumber⟩ := hkept _ hupper
  exact ⟨hupper, hagain, (hnumber _ (by decide)).mpr (by decide +kernel), (htold _ _ _ hupper hagain).mp rfl⟩

end UniqueId

end ArtifactIdentity
