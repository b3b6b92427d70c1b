import ArtifactIdentity.Proofs.Identity.VersionGrammar

/-!
# The dotted text of a version

Integers can be declared as a version in two forms, as a sequence and by their decimal texts with dots between
them, and both are accepted for the same integers. The text of a version is of the second form. It has no zero
too many, it is read as the version that it shows, and no other version has the same text.
-/

namespace ArtifactIdentity.Version

open Text

/-- The decimal texts of integers with dots between them. -/
def dotted (ns : List Int) : String :=
  String.ofList (joinWith '.' (ns.map fun n => (integerText n).toList))

/-- The decimal text of a number that starts with a zero only where the zero is all of it. -/
structure IsPlain (cs : List Char) (n : Nat) : Prop where
  nonempty : cs ≠ []
  digits : ∀ c ∈ cs, isDigit c = true
  value : valueOf 10 cs = n
  noZeros : cs.head? = some '0' → cs = ['0']

/-- Four such texts with dots between them, and nothing around them. -/
def IsPlainText (s : String) (v : Version) : Prop :=
  ∃ a b c d, s.toList = a ++ '.' :: (b ++ '.' :: (c ++ '.' :: d)) ∧
    IsPlain a v.major ∧ IsPlain b v.minor ∧ IsPlain c v.patch ∧ IsPlain d v.build

variable {field : String} {v w : Version} {n : Int} {ns : List Int} {c : Char}

/-! ## The texts of integers -/

theorem toList_integerText_ofNat (k : Nat) : (integerText (Int.ofNat k)).toList = decimal k := by
  have hnonneg : ¬ Int.ofNat k < 0 := by simp
  rw [integerText, if_neg hnonneg, decimalText, String.toList_ofList]
  rfl

theorem mem_integerText (h : c ∈ (integerText n).toList) : c = '-' ∨ isDigit c = true := by
  have hdecimal : (decimalText n.natAbs).toList = decimal n.natAbs := String.toList_ofList
  rw [integerText] at h
  split at h
  · rw [String.toList_append, hdecimal] at h
    rcases List.mem_append.mp h with h | h
    · exact Or.inl (List.mem_singleton.mp h)
    · exact Or.inr (isDigit_of_mem_decimal h)
  · rw [hdecimal] at h
    exact Or.inr (isDigit_of_mem_decimal h)

theorem not_mem_integerText_dot (n : Int) : '.' ∉ (integerText n).toList := by
  intro h
  rcases mem_integerText h with h | h
  · exact absurd h (by decide)
  · exact absurd h (by decide)

theorem not_isBlank_integerText (h : c ∈ (integerText n).toList) : isBlank c = false := by
  rcases mem_integerText h with rfl | h
  · decide
  · exact isBlank_of_isDigit h

/-- An integer whose text is a part is the number of the part: a sign would be no digit. -/
theorem eq_of_isPart {k : Nat} (h : IsPart (integerText n).toList k) : n = Int.ofNat k := by
  rcases Int.lt_or_le n 0 with hneg | hnonneg
  · have hsign : '-' ∈ (integerText n).toList := by
      rw [integerText, if_pos hneg, String.toList_append]
      exact List.mem_append_left _ (List.mem_singleton.mpr rfl)
    exact absurd (h.digits _ hsign) (by decide)
  · obtain ⟨m, rfl⟩ := Int.eq_ofNat_of_zero_le hnonneg
    have hvalue := h.value
    rw [← Int.ofNat_eq_natCast, toList_integerText_ofNat, valueOf_decimal] at hvalue
    rw [hvalue]
    rfl

/-! ## Rows of integers -/

theorem dotted_components (v : Version) : dotted (v.components.map Int.ofNat) = v.text := by
  simp only [dotted, text, List.map_map, Function.comp_def, toList_integerText_ofNat]

/-- There is nothing to trim. -/
theorem trim_dotted (ns : List Int) :
    trim (dotted ns).toList = joinWith '.' (ns.map fun n => (integerText n).toList) := by
  rw [dotted, String.toList_ofList]
  refine trim_eq_self fun c hc => ?_
  rcases mem_joinWith hc with rfl | ⟨p, hp, hc⟩
  · decide
  · obtain ⟨n, -, rfl⟩ := List.mem_map.mp hp
    exact not_isBlank_integerText hc

theorem splitAt_dotted (hne : ns ≠ []) :
    splitAt '.' (trim (dotted ns).toList) = ns.map fun n => (integerText n).toList := by
  rw [trim_dotted]
  refine splitAt_joinWith '.' (by simpa using hne) fun p hp => ?_
  obtain ⟨n, -, rfl⟩ := List.mem_map.mp hp
  exact not_mem_integerText_dot n

theorem eq_components_of_spells (h : Spells (.text (dotted ns)) v) :
    ns = v.components.map Int.ofNat := by
  cases h with
  | text before a b c d after hbefore hafter hs ha hb hc hd =>
    have htrim := trim_padded hbefore hafter (not_isBlank_parts ha hb hc hd)
    rw [← hs] at htrim
    have hne : ns ≠ [] := by
      rintro rfl
      have hlength := congrArg List.length htrim
      simp [trim_dotted, joinWith] at hlength
    have hpieces : ns.map (fun n => (integerText n).toList) = [a, b, c, d] := by
      rw [← splitAt_dotted hne, htrim]
      exact splitAt_parts ha hb hc hd
    -- One integer for each part, and no more.
    obtain ⟨n₁, _, rfl, rfl, hthree⟩ := List.map_eq_cons_iff.mp hpieces
    obtain ⟨n₂, _, rfl, rfl, htwo⟩ := List.map_eq_cons_iff.mp hthree
    obtain ⟨n₃, _, rfl, rfl, hone⟩ := List.map_eq_cons_iff.mp htwo
    obtain ⟨n₄, _, rfl, rfl, hnone⟩ := List.map_eq_cons_iff.mp hone
    obtain rfl := List.map_eq_nil_iff.mp hnone
    rw [eq_of_isPart ha, eq_of_isPart hb, eq_of_isPart hc, eq_of_isPart hd]
    rfl

/-- **The dotted text of integers is accepted where they are the parts of a version.** -/
theorem ofLiteral_dotted_eq_ok_iff :
    ofLiteral field (.text (dotted ns)) = .ok v ↔ v.InRange ∧ ns = v.components.map Int.ofNat := by
  constructor
  · intro h
    have hrange := inRange_of_ofLiteral h
    rw [ofLiteral] at h
    exact ⟨hrange, eq_components_of_spells (spells_of_ofText h)⟩
  · rintro ⟨hrange, rfl⟩
    rw [dotted_components]
    exact ofLiteral_text field hrange

/-- So is the sequence of the same integers. -/
theorem ofLiteral_integers_eq_ok_iff {literal : Literal} (htext : ∀ s, literal ≠ .text s)
    (hitems : literal.items? = some (ns.map Literal.integer)) :
    ofLiteral field literal = .ok v ↔ v.InRange ∧ ns = v.components.map Int.ofNat := by
  have hinjective : Function.Injective Literal.integer := fun _ _ => Literal.integer.inj
  rw [ofLiteral_items_eq_ok_iff htext hitems, isRow_iff, List.map_inj_right hinjective]

/-! ## The text of a version -/

theorem isPlain_decimal (n : Nat) : IsPlain (decimal n) n := by
  refine ⟨decimal_ne_nil n, fun c => isDigit_of_mem_decimal, valueOf_decimal n, ?_⟩
  intro hzero
  rcases Nat.eq_zero_or_pos n with rfl | hpos
  · exact decimal_of_lt (by decide)
  · exact absurd hzero (head?_decimal_ne_zero hpos)

theorem isPlainText_text (v : Version) : IsPlainText v.text v :=
  ⟨_, _, _, _, String.toList_ofList, isPlain_decimal v.major, isPlain_decimal v.minor,
    isPlain_decimal v.patch, isPlain_decimal v.build⟩

/-- **Versions within the range are told by their texts.** -/
theorem text_eq_iff (hv : v.InRange) (hw : w.InRange) : v.text = w.text ↔ v = w := by
  constructor
  · intro htext
    have hread := ofLiteral_text "version" hv
    rw [htext, ofLiteral_text "version" hw] at hread
    exact (Except.ok.inj hread).symm
  · rintro rfl
    rfl

/-- **A row of integers is accepted as a sequence just where its dotted text is, and read as the same version:
where it is four integers from 0 to 65534. What has been accepted is accepted again by its text, which is four
decimal numbers without zeros in front, and two accepted literals are the same version just where their texts
are equal.** -/
theorem text_restates_accepted (field : String) :
    (∀ (ns : List Int) (v : Version),
      (ofLiteral field (.list (ns.map .integer)) = .ok v ↔ ofLiteral field (.text (dotted ns)) = .ok v) ∧
      (ofLiteral field (.tuple (ns.map .integer)) = .ok v ↔ ofLiteral field (.text (dotted ns)) = .ok v) ∧
      (ofLiteral field (.text (dotted ns)) = .ok v ↔
        ns = [(v.major : Int), v.minor, v.patch, v.build] ∧ ∀ n ∈ ns, 0 ≤ n ∧ n ≤ 65534)) ∧
    (∀ (literal : Literal) (v : Version), ofLiteral field literal = .ok v →
      ofLiteral field (.text v.text) = .ok v ∧ IsPlainText v.text v) ∧
    ∀ (x y : Literal) (v w : Version), ofLiteral field x = .ok v → ofLiteral field y = .ok w →
      (v = w ↔ v.text = w.text) := by
  refine ⟨fun ns v => ⟨?_, ?_, ?_⟩, ?_, ?_⟩
  · rw [ofLiteral_dotted_eq_ok_iff]
    exact ofLiteral_integers_eq_ok_iff (fun _ => Literal.noConfusion) rfl
  · rw [ofLiteral_dotted_eq_ok_iff]
    exact ofLiteral_integers_eq_ok_iff (fun _ => Literal.noConfusion) rfl
  · rw [ofLiteral_dotted_eq_ok_iff, and_comm]
    refine and_congr_right fun hns => ?_
    rw [hns]
    exact inRange_iff_integers
  · intro literal v h
    exact ⟨ofLiteral_text field (inRange_of_ofLiteral h), isPlainText_text v⟩
  · intro x y v w hx hy
    exact (text_eq_iff (inRange_of_ofLiteral hx) (inRange_of_ofLiteral hy)).symm

/-- A padded text is restated without its zeros, and a list is accepted as its dotted text is. -/
theorem samples_restated :
    ofLiteral "version" (.text " 0001.2.3.65534\n") = .ok ⟨1, 2, 3, 65534⟩ ∧
      ofLiteral "version" (.list ([1, 2, 3, 65534].map .integer)) = .ok ⟨1, 2, 3, 65534⟩ ∧
      ofLiteral "version" (.text "1.2.3.65534") = .ok ⟨1, 2, 3, 65534⟩ := by
  have hpadded : ofLiteral "version" (.text " 0001.2.3.65534\n") = .ok ⟨1, 2, 3, 65534⟩ :=
    eq_ok_of_toOption (by decide +kernel)
  obtain ⟨hrows, hrestated, -⟩ := text_restates_accepted "version"
  obtain ⟨hlist, -, hdotted⟩ := hrows [1, 2, 3, 65534] ⟨1, 2, 3, 65534⟩
  have htext : text ⟨1, 2, 3, 65534⟩ = "1.2.3.65534" := by decide +kernel
  refine ⟨hpadded, hlist.mpr (hdotted.mpr ⟨rfl, by decide⟩), ?_⟩
  rw [← htext]
  exact (hrestated _ _ hpadded).1

end ArtifactIdentity.Version
