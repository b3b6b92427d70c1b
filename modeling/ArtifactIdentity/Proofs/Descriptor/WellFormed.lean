import ArtifactIdentity.Descriptor.Declaration
import ArtifactIdentity.Proofs.Identity.NormalForm

/-!
# Well-formed descriptors

Reading a table gives a descriptor exactly where every field is stated by the literal that the table gives
for it, or may be left out, and every key of the table is used. The relation between a field and the
literals that state it is said without the scan that collects issues, and every descriptor that is read
from a literal is well formed.
-/

namespace ArtifactIdentity

/-! ## Sound values -/

/-- The error of a result, if it is one. -/
def errorOf? {ε α : Type} : Except ε α → Option ε
  | .ok _ => none
  | .error e => some e

theorem errorOf?_eq_some_iff {ε α : Type} {x : Except ε α} {e : ε} : errorOf? x = some e ↔ x = .error e := by
  cases x <;> simp [errorOf?]

/-- The malformed identity that a fault is, if it is one. -/
def Fault.malformed? : Fault → Option Malformed
  | .malformed x => some x
  | .digits _ => none

theorem Fault.malformed?_eq_some_iff {fault : Fault} {x : Malformed} :
    fault.malformed? = some x ↔ fault = .malformed x := by
  cases fault <;> simp [malformed?]

/-- The field of a malformed identity. -/
def BuildError.malformedField? : BuildError → Option String
  | .fault (.malformed x) => some x.field
  | _ => none

/-! ## Tables of texts -/

/-- The text under a key, where it is a text. -/
def Literal.keyedText? (e : String × Literal) : Option (String × String) :=
  match e.2 with
  | .text s => some (e.1, s)
  | _ => none

/-- Texts under their keys as a table. -/
def Entries.ofTexts (texts : List (String × String)) : Entries :=
  texts.map fun p => (p.1, .text p.2)

theorem Entries.eq_ofTexts {raw : Entries} {texts : List (String × String)}
    (h : raw.mapM Literal.keyedText? = some texts) : raw = ofTexts texts := by
  induction raw generalizing texts with
  | nil =>
    obtain rfl := Option.some.inj h
    rfl
  | cons e rest ih =>
    obtain ⟨key, l⟩ := e
    simp only [List.mapM_cons, bind, pure, Option.bind_eq_some_iff] at h
    obtain ⟨p, hp, more, hmore, hsome⟩ := h
    obtain rfl := Option.some.inj hsome
    cases l with
    | text s =>
      obtain rfl := Option.some.inj hp
      rw [ih hmore]
      rfl
    | _ => cases hp

/-! ## Checks -/

namespace Checked

variable {α β : Type}

theorem map_eq_sound_iff {f : α → β} {x : Checked α} {b : β} :
    f <$> x = .sound b ↔ ∃ a, x = .sound a ∧ f a = b := by
  cases x with
  | sound a =>
    constructor
    · intro h
      exact ⟨a, rfl, Checked.sound.inj h⟩
    · rintro ⟨a', ha, hb⟩
      obtain rfl := Checked.sound.inj ha
      exact congrArg Checked.sound hb
  | flawed i is =>
    constructor
    · intro h
      cases h
    · rintro ⟨a, ha, -⟩
      cases ha

/-- A function and its argument are sound together only where both are sound. -/
theorem ap_eq_sound_iff {f : Checked (α → β)} {x : Checked α} {b : β} :
    f <*> x = .sound b ↔ ∃ g a, f = .sound g ∧ x = .sound a ∧ g a = b := by
  constructor
  · intro h
    cases f with
    | sound g =>
      cases x with
      | sound a => exact ⟨g, a, rfl, rfl, Checked.sound.inj h⟩
      | flawed i is => cases h
    | flawed i is => cases x <;> cases h
  · rintro ⟨g, a, rfl, rfl, rfl⟩
    rfl

theorem alsoFlawed_eq_sound_iff {x : Checked α} {more : List Issue} {a : α} :
    x.alsoFlawed more = .sound a ↔ x = .sound a ∧ more = [] := by
  cases more with
  | nil => simp [alsoFlawed]
  | cons i is => cases x <;> simp [alsoFlawed]

/-- A value is surfaced only from a sound one. -/
theorem surfaced_eq_ok_iff {x : Checked α} {a : α} : x.surfaced = .ok a ↔ x = .sound a := by
  cases x <;> simp [surfaced]

theorem eq_sound_iff_toOption {x : Checked α} {a : α} :
    x = .sound a ↔ x.surfaced.toOption = some a := by
  cases x <;> simp [surfaced, Except.toOption]

instance [DecidableEq α] (x : Checked α) (a : α) : Decidable (x = .sound a) :=
  decidable_of_iff _ eq_sound_iff_toOption.symm

end Checked

/-! ## Fields of a table -/

namespace Field

variable {α : Type} {f : Field} {entries : Entries} {accept : Literal → Except Problem α} {value : α}

theorem required_eq_sound_iff :
    f.required entries accept = .sound value ↔
      match f.given? entries with
      | some (_, literal) => accept literal = .ok value
      | none => False := by
  unfold required
  cases f.given? entries with
  | none => simp
  | some given =>
    obtain ⟨spelling, literal⟩ := given
    cases h : accept literal with
    | ok v => simp [h]
    | error problem => simp [h]

theorem optional_eq_sound_iff {default : α} :
    f.optional entries default accept = .sound value ↔
      match f.given? entries with
      | some (_, literal) => accept literal = .ok value
      | none => value = default := by
  unfold optional
  cases h : f.given? entries with
  | none => simp [eq_comm]
  | some given =>
    have hrequired := @required_eq_sound_iff α f entries accept value
    simpa [h] using hrequired

end Field

namespace Descriptor

/-- A literal states the fact that a descriptor has in a field: the rule of the field makes that fact of
it. -/
def States (d : Descriptor) : Field → Literal → Prop
  | .title, l => Coercion.shownText .title l = .ok d.title
  | .description, l => Coercion.text l = .ok d.description
  | .configurationTag, l => Coercion.text l = .ok d.configurationTag
  | .organization, l => Coercion.shownText .organization l = .ok d.organization
  | .productName, l => Coercion.shownText .productName l = .ok d.productName
  | .copyright, l => Coercion.text l = .ok d.copyright
  | .trademark, l => Coercion.text l = .ok d.trademark
  | .culture, l => Coercion.text l = .ok d.culture
  | .uniqueId, l => Coercion.uniqueId l = .ok d.uniqueId
  | .assemblyVersion, l => Coercion.version .assemblyVersion l = .ok d.assemblyVersion
  | .fileVersion, l => Coercion.version .fileVersion l = .ok d.fileVersion
  | .interopVisible, l => Coercion.flag l = .ok d.interopVisible
  | .complianceChecked, l => Coercion.flag l = .ok d.complianceChecked
  | .internalAccessGrant, l => Coercion.grant l = .ok d.internalAccessGrant

/-- A field may be left out where its fact is the one that holds anyway. The identity has none such. -/
def Omits (d : Descriptor) : Field → Prop
  | .description => d.description = ""
  | .configurationTag => d.configurationTag = ""
  | .copyright => d.copyright = ""
  | .trademark => d.trademark = ""
  | .culture => d.culture = ""
  | .interopVisible => d.interopVisible = false
  | .complianceChecked => d.complianceChecked = false
  | .internalAccessGrant => d.internalAccessGrant = none
  | .title | .organization | .productName | .uniqueId | .assemblyVersion | .fileVersion => False

/-- What a table says about a field is what a descriptor has there. -/
def StatedBy (d : Descriptor) (entries : Entries) (f : Field) : Prop :=
  match f.given? entries with
  | some (_, literal) => d.States f literal
  | none => d.Omits f

/-- **The fields of a table are sound exactly where the table states every one of them.** -/
theorem checkFields_eq_sound_iff {entries : Entries} {d : Descriptor} :
    checkFields entries = .sound d ↔ ∀ f, d.StatedBy entries f := by
  constructor
  · intro h
    simp only [checkFields, Checked.ap_eq_sound_iff, Checked.map_eq_sound_iff] at h
    -- Fourteen arguments of the constructor, the last one outermost.
    obtain ⟨_, _, ⟨_, _, ⟨_, _, ⟨_, _, ⟨_, _, ⟨_, _, ⟨_, _, ⟨_, _, ⟨_, _, ⟨_, _, ⟨_, _, ⟨_, _, ⟨_, _,
      ⟨_, h1, rfl⟩, h2, rfl⟩, h3, rfl⟩, h4, rfl⟩, h5, rfl⟩, h6, rfl⟩, h7, rfl⟩, h8, rfl⟩, h9, rfl⟩,
      h10, rfl⟩, h11, rfl⟩, h12, rfl⟩, h13, rfl⟩, h14, rfl⟩ := h
    intro f
    cases f
    · exact Field.required_eq_sound_iff.mp h1
    · exact Field.optional_eq_sound_iff.mp h2
    · exact Field.optional_eq_sound_iff.mp h3
    · exact Field.required_eq_sound_iff.mp h4
    · exact Field.required_eq_sound_iff.mp h5
    · exact Field.optional_eq_sound_iff.mp h6
    · exact Field.optional_eq_sound_iff.mp h7
    · exact Field.optional_eq_sound_iff.mp h8
    · exact Field.required_eq_sound_iff.mp h9
    · exact Field.required_eq_sound_iff.mp h10
    · exact Field.required_eq_sound_iff.mp h11
    · exact Field.optional_eq_sound_iff.mp h12
    · exact Field.optional_eq_sound_iff.mp h13
    · exact Field.optional_eq_sound_iff.mp h14
  · intro h
    have required {α : Type} {f : Field} {accept : Literal → Except Problem α} {value : α}
        (hf : match f.given? entries with
          | some (_, literal) => accept literal = .ok value
          | none => False) : f.required entries accept = .sound value :=
      Field.required_eq_sound_iff.mpr hf
    have optional {α : Type} {f : Field} {accept : Literal → Except Problem α} {default value : α}
        (hf : match f.given? entries with
          | some (_, literal) => accept literal = .ok value
          | none => value = default) : f.optional entries default accept = .sound value :=
      Field.optional_eq_sound_iff.mpr hf
    rw [checkFields, required (h .title), optional (h .description), optional (h .configurationTag),
      required (h .organization), required (h .productName), optional (h .copyright),
      optional (h .trademark), optional (h .culture), required (h .uniqueId),
      required (h .assemblyVersion), required (h .fileVersion), optional (h .interopVisible),
      optional (h .complianceChecked), optional (h .internalAccessGrant)]
    rfl

theorem extraIssues_eq_nil_iff {entries : Entries} :
    extraIssues entries = [] ↔ ∀ e ∈ entries, usesKey entries e.1 = true := by
  simp [extraIssues, List.filter_eq_nil_iff]

/-- **A table is read as a descriptor exactly where it states every field and has no further key.** -/
theorem ofEntries_eq_sound_iff {entries : Entries} {d : Descriptor} :
    ofEntries entries = .sound d ↔
      (∀ f, d.StatedBy entries f) ∧ ∀ e ∈ entries, usesKey entries e.1 = true := by
  rw [ofEntries, Checked.alsoFlawed_eq_sound_iff, checkFields_eq_sound_iff, extraIssues_eq_nil_iff]

/-! ## What a descriptor that was read looks like -/

/-- The facts of a descriptor are as the rules of its fields leave them. -/
structure WellFormed (d : Descriptor) : Prop where
  title : Text.isBlankText d.title.toList = false
  organization : Text.isBlankText d.organization.toList = false
  productName : Text.isBlankText d.productName.toList = false
  /-- The identifier is the text of a number. -/
  uniqueId : ∃ n, d.uniqueId = IdNumber.text n
  assemblyVersion : d.assemblyVersion.InRange
  fileVersion : d.fileVersion.InRange
  /-- Access is granted to one artifact at most. -/
  internalAccessGrant : ∀ name ∈ d.internalAccessGrant, Counterpart.IsName name

theorem not_isBlankText_of_shownText {f : Field} {literal : Literal} {s : String}
    (h : Coercion.shownText f literal = .ok s) : Text.isBlankText s.toList = false := by
  unfold Coercion.shownText at h
  split at h
  · split at h
    · simp [Coercion.ruled, refuse] at h
    · rename_i hshown
      obtain rfl := Except.ok.inj h
      simpa using hshown
  · simp [Coercion.ruled, refuse] at h

theorem ruled_eq_ok_iff {α : Type} {result : Except Fault α} {a : α} :
    Coercion.ruled result = .ok a ↔ result = .ok a := by
  cases result <;> simp [Coercion.ruled]

theorem isName_of_grant {literal : Literal} {name : String}
    (h : Coercion.grant literal = .ok (some name)) : Counterpart.IsName name := by
  unfold Coercion.grant at h
  split at h
  · cases h
  · rw [ruled_eq_ok_iff] at h
    cases hn : Counterpart.ofLiteral Field.internalAccessGrant.name literal with
    | error fault =>
      rw [hn] at h
      cases h
    | ok s =>
      rw [hn] at h
      obtain rfl := Option.some.inj (Except.ok.inj h)
      exact Counterpart.isName_of_ofLiteral hn

/-- A descriptor whose fields a table states is well formed. -/
theorem wellFormed_of_statedBy {d : Descriptor} {entries : Entries}
    (h : ∀ f, d.StatedBy entries f) : d.WellFormed := by
  -- A field of the identity cannot be left out, so a literal states it.
  have stated : ∀ f, ¬ d.Omits f → ∃ literal, d.States f literal := by
    intro f hf
    have hs := h f
    unfold StatedBy at hs
    split at hs
    · exact ⟨_, hs⟩
    · exact absurd hs hf
  obtain ⟨_, ht⟩ := stated .title id
  obtain ⟨_, ho⟩ := stated .organization id
  obtain ⟨_, hp⟩ := stated .productName id
  obtain ⟨_, hu⟩ := stated .uniqueId id
  obtain ⟨_, ha⟩ := stated .assemblyVersion id
  obtain ⟨_, hf⟩ := stated .fileVersion id
  refine ⟨not_isBlankText_of_shownText ht, not_isBlankText_of_shownText ho,
    not_isBlankText_of_shownText hp, UniqueId.eq_text_of_ofLiteral (ruled_eq_ok_iff.mp hu),
    Version.inRange_of_ofLiteral (ruled_eq_ok_iff.mp ha),
    Version.inRange_of_ofLiteral (ruled_eq_ok_iff.mp hf), ?_⟩
  intro name hname
  have hgrant : ¬ d.Omits .internalAccessGrant := by
    rw [Omits, Option.mem_def.mp hname]
    exact Option.some_ne_none name
  obtain ⟨_, hg⟩ := stated .internalAccessGrant hgrant
  rw [States, Option.mem_def.mp hname] at hg
  exact isName_of_grant hg

/-- **Every descriptor that is read from a literal is well formed.** -/
theorem wellFormed_of_ofLiteral {literal : Literal} {d : Descriptor}
    (h : ofLiteral literal = .sound d) : d.WellFormed := by
  unfold ofLiteral at h
  split at h
  · exact wellFormed_of_statedBy (ofEntries_eq_sound_iff.mp h).1
  · cases h

end Descriptor

/-! ## Declared descriptors -/

namespace Builder

variable {b : Builder} {keywords : Entries} {d : Descriptor}

theorem wellFormed_of_declaration (h : b.declaration keywords = .ok d) : d.WellFormed := by
  unfold declaration at h
  split at h
  · cases h
  split at h
  · cases h
  split at h
  · cases h
  split at h
  · cases h
  split at h
  · cases h
  · rename_i hread
    obtain rfl := Except.ok.inj h
    rw [Checked.surfaced_eq_ok_iff] at hread
    exact Descriptor.wellFormed_of_statedBy (Descriptor.ofEntries_eq_sound_iff.mp hread).1

theorem wellFormed_of_declare (h : (b.declare keywords).result = .ok d) : d.WellFormed := by
  unfold declare at h
  split at h
  · cases h
  · rename_i hdeclared
    obtain rfl := Except.ok.inj h
    exact wellFormed_of_declaration hdeclared

end Builder

/-- **Every descriptor that is declared is well formed.** -/
theorem Declaration.wellFormed_of_onBuilder {excludeTests : Bool} {grant : Literal} {fields : Entries}
    {d : Descriptor} (h : (onBuilder excludeTests grant fields).result = .ok d) : d.WellFormed := by
  unfold onBuilder at h
  simp only at h
  split at h
  · exact Builder.wellFormed_of_declare h
  · split at h
    · cases h
    · exact Builder.wellFormed_of_declare h

end ArtifactIdentity
