import ArtifactIdentity.Proofs.Block.Readers
import ArtifactIdentity.Proofs.Stamping

/-!
# The descriptors that are handed out

A descriptor comes out of a declaration, a literal, a block or a stamping, and each of these ways ends in
the rules of the fields. What a field may hold is said here by its values alone, without the rules that let
them in, and every descriptor that is handed out has such a value in each of its fields.
-/

namespace ArtifactIdentity

/-! ## Canonical identifiers -/

namespace IdNumber

/-- A hexadecimal digit in lower case. -/
def IsLowerHex (c : Char) : Prop :=
  '0' ≤ c ∧ c ≤ '9' ∨ 'a' ≤ c ∧ c ≤ 'f'

instance (c : Char) : Decidable (IsLowerHex c) :=
  inferInstanceAs (Decidable (_ ∨ _))

/-- Groups of 8, 4, 4, 4 and 12 hexadecimal digits in lower case, with a hyphen between two groups. -/
def IsLowerCanonical (s : String) : Prop :=
  ∃ pieces, s.toList = Text.joinWith '-' pieces ∧ pieces.map List.length = [8, 4, 4, 4, 12] ∧
    ∀ piece ∈ pieces, ∀ c ∈ piece, IsLowerHex c

theorem isLowerHex_digitOf {n : Nat} (h : n < 16) : IsLowerHex (Text.digitOf n) := by
  have : ∀ m : Fin 16, IsLowerHex (Text.digitOf m.1) := by decide
  exact this ⟨n, h⟩

theorem isLowerCanonical_text (n : Nat) : IsLowerCanonical (text n) := by
  refine ⟨cut groups (Text.hexPadded 32 n), String.toList_ofList, (cut_hexPadded n).1, ?_⟩
  intro piece hpiece c hc
  obtain ⟨m, hm, rfl⟩ := Text.exists_digitOf_of_mem_hexPadded (mem_of_mem_cut hpiece c hc)
  exact isLowerHex_digitOf hm

theorem IsLowerCanonical.length {s : String} (h : IsLowerCanonical s) : s.length = 36 := by
  obtain ⟨pieces, hs, hlengths, -⟩ := h
  rw [← String.length_toList, hs]
  exact length_joinWith_groups hlengths

end IdNumber

/-! ## What a field may hold -/

/-- The values that a field of a descriptor may have. -/
def Field.Admits : Field → Literal → Prop
  | .title, l | .organization, l | .productName, l =>
    ∃ s, l = .text s ∧ ∃ c ∈ s.toList, Text.isBlank c = false
  | .description, l | .configurationTag, l | .copyright, l | .trademark, l | .culture, l =>
    ∃ s, l = .text s
  | .uniqueId, l => ∃ s, l = .text s ∧ s.length = 36 ∧ IdNumber.IsLowerCanonical s
  | .assemblyVersion, l | .fileVersion, l =>
    ∃ major minor patch build : Int,
      l = .quad (.integer major) (.integer minor) (.integer patch) (.integer build) ∧
        ∀ n ∈ [major, minor, patch, build], 0 ≤ n ∧ n ≤ 65534
  | .interopVisible, l | .complianceChecked, l => ∃ b, l = .flag b
  | .internalAccessGrant, l =>
    l = .absent ∨ ∃ s, l = .text s ∧ s ≠ "" ∧
      ∀ c ∈ s.toList, Text.isBlank c = false ∧ c ∉ ['*', '?', ',', ';']

/-- A text that is not blank has a character that is not. -/
theorem Text.exists_not_isBlank {s : String} (h : isBlankText s.toList = false) :
    ∃ c ∈ s.toList, isBlank c = false := by
  simpa [isBlankText] using h

theorem Counterpart.not_isForbidden {c : Char} (h : isForbidden c = false) :
    Text.isBlank c = false ∧ c ∉ ['*', '?', ',', ';'] := by
  simp only [isForbidden, Bool.or_eq_false_iff, decide_eq_false_iff_not] at h
  obtain ⟨⟨⟨⟨hstar, hmark⟩, hcomma⟩, hsemicolon⟩, hblank⟩ := h
  refine ⟨hblank, ?_⟩
  simp only [List.mem_cons, List.not_mem_nil, or_false]
  rintro (hc | hc | hc | hc)
  · exact hstar hc
  · exact hmark hc
  · exact hcomma hc
  · exact hsemicolon hc

namespace Descriptor

/-- **A well-formed descriptor has in each field a value that the field may hold.** -/
theorem WellFormed.admits {d : Descriptor} (h : d.WellFormed) (f : Field) : f.Admits (d.get f) := by
  cases f with
  | title => exact ⟨_, rfl, Text.exists_not_isBlank h.title⟩
  | organization => exact ⟨_, rfl, Text.exists_not_isBlank h.organization⟩
  | productName => exact ⟨_, rfl, Text.exists_not_isBlank h.productName⟩
  | description | configurationTag | copyright | trademark | culture => exact ⟨_, rfl⟩
  | interopVisible | complianceChecked => exact ⟨_, rfl⟩
  | uniqueId =>
    obtain ⟨n, hn⟩ := h.uniqueId
    have hcanonical := IdNumber.isLowerCanonical_text n
    rw [← hn] at hcanonical
    exact ⟨_, rfl, hcanonical.length, hcanonical⟩
  | assemblyVersion => exact ⟨_, _, _, _, rfl, Version.inRange_iff_integers.mp h.assemblyVersion⟩
  | fileVersion => exact ⟨_, _, _, _, rfl, Version.inRange_iff_integers.mp h.fileVersion⟩
  | internalAccessGrant =>
    cases hgrant : d.internalAccessGrant with
    | none =>
      refine Or.inl ?_
      rw [get, hgrant]
      rfl
    | some name =>
      obtain ⟨hne, hclean⟩ := h.internalAccessGrant name hgrant
      refine Or.inr ⟨name, ?_, hne, ?_⟩
      · rw [get, hgrant]
        rfl
      · intro c hc
        exact Counterpart.not_isForbidden (hclean c hc)

end Descriptor

/-! ## Ways out -/

/-- The ways in which a descriptor is handed out. -/
inductive Descriptor.HandedOut : Descriptor → Prop where
  /-- It is declared in one step. -/
  | declared (keywords : Entries) (d : Descriptor) (h : (declare keywords).result = .ok d) : d.HandedOut
  /-- It is declared by a builder, whatever was done with the builder before. -/
  | built (b : Builder) (keywords : Entries) (d : Descriptor)
      (h : (b.declare keywords).result = .ok d) : d.HandedOut
  | validated (literal : Literal) (d : Descriptor) (h : ofLiteral literal = .sound d) : d.HandedOut
  | loaded (m : Machine) (directory : Pathname) (d : Descriptor) (h : m.load directory = .ok d) :
    d.HandedOut
  | stamped (m : Machine) (root : Pathname) (output : Option Pathname) (config : Option Config)
      (excludeTests : Option Bool) (stamped : Stamped)
      (h : (m.stamp root output config excludeTests).result = .ok stamped) :
    stamped.descriptor.HandedOut

namespace Descriptor

theorem wellFormed_of_handedOut {d : Descriptor} (h : d.HandedOut) : d.WellFormed := by
  cases h with
  | declared keywords _ h => exact Declaration.wellFormed_of_onBuilder h
  | built b keywords _ h => exact Builder.wellFormed_of_declare h
  | validated literal _ h => exact wellFormed_of_ofLiteral h
  | loaded m directory _ h => exact Machine.wellFormed_of_load h
  | stamped m root output config excludeTests stamped h =>
    obtain ⟨declared, directory, hdeclared, -, -, rfl⟩ := Machine.stamp_eq_ok h
    exact Machine.wellFormed_of_declareArtifact hdeclared

/-- **Every descriptor that is handed out has in each field a value that the field may hold.** -/
theorem admits_of_handedOut {d : Descriptor} (h : d.HandedOut) : ∀ f : Field, f.Admits (d.get f) :=
  (wellFormed_of_handedOut h).admits

/-- A literal with an identifier in upper case and versions in other forms is handed out as a descriptor, and
so is what is stamped from a configuration. -/
theorem admits_of_escaped_and_stamped :
    ofLiteral Block.escapedLiteral = .sound Block.escapedDescriptor ∧
      (∀ f : Field, f.Admits (Block.escapedDescriptor.get f)) ∧
      ∃ stamped, (Machine.plainSample.stamp ⟨true, ["art"]⟩ none none none).result = .ok stamped ∧
        stamped.descriptor = Stamping.sampleDescriptor ∧
        ∀ f : Field, f.Admits (stamped.descriptor.get f) := by
  have hsound : ofLiteral Block.escapedLiteral = .sound Block.escapedDescriptor := by decide +kernel
  have hfile : Machine.plainSample.node (Config.fileUnder ⟨true, ["art"]⟩) =
      .ok (.file Stamping.sampleText.toUTF8) := rfl
  have houtput : Machine.plainSample.resolveOutput ⟨true, ["art"]⟩ BuildSettings.defaultOutputDirectory =
      .ok ["art", ".descriptor"] := rfl
  have hwrite : Machine.plainSample.writeBlock (.ofLocation ["art", ".descriptor"])
      Stamping.sampleDescriptor = (Machine.settledSample.tree, .ok ()) := rfl
  obtain ⟨declared, hdeclared, hd, hdirectory⟩ := Machine.declareArtifact_sampleText hfile houtput
  rw [← hd] at hwrite
  have hstamp := congrArg Change.result (Machine.stamp_of_writeBlock hdeclared hdirectory hwrite)
  refine ⟨hsound, admits_of_handedOut (.validated _ _ hsound), _, hstamp, hd, ?_⟩
  exact admits_of_handedOut (.stamped _ _ _ _ _ _ hstamp)

end Descriptor

end ArtifactIdentity
