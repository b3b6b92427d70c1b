import ArtifactIdentity.Proofs.Descriptor.Declaring
import Mathlib.Data.List.Induction

/-!
# Which keywords an open builder declares

A field is admissible by itself: it is given if it has to be, and its rule takes what is given. An open builder
declares keywords where each of the fields is admissible. The grant that it holds is never in the way, because
only names come to be held. Where some field is not admissible, the first such field is named by the fault,
together with the literal that was given for it.
-/

namespace ArtifactIdentity

open Descriptor

/-! ## Admissible fields -/

/-- What keywords say of a field is admissible: a field that has to be given is given, and the rule of the
field takes whatever is given. -/
structure Field.Admissible (f : Field) (keywords : Entries) : Prop where
  given : f.isRequired = true → ∃ l, Gives keywords f l
  taken : ∀ l, Gives keywords f l → f.problem? l = none

namespace Field

variable {f : Field} {keywords : Entries}

/-- The admissible fields are those without a fault. -/
theorem admissible_iff (h : Spelled keywords) :
    f.Admissible keywords ↔ f.fault? (f.literal? keywords) = none := by
  cases hgiven : f.literal? keywords with
  | none =>
    have hnone : ∀ l, ¬ Gives keywords f l := by
      intro l hl
      rw [← h.literal?_eq_some_iff, hgiven] at hl
      cases hl
    rw [fault?]
    constructor
    · intro hadmissible
      rw [if_neg]
      intro hrequired
      obtain ⟨l, hl⟩ := hadmissible.given hrequired
      exact hnone l hl
    · intro hfault
      constructor
      · intro hrequired
        rw [if_pos hrequired] at hfault
        cases hfault
      · intro l hl
        exact absurd hl (hnone l)
  | some l =>
    have hl : Gives keywords f l := h.literal?_eq_some_iff.mp hgiven
    rw [fault?, Option.map_eq_none_iff]
    constructor
    · intro hadmissible
      exact hadmissible.taken l hl
    · intro htaken
      refine ⟨fun _ => ⟨l, hl⟩, ?_⟩
      intro l' hl'
      rw [← h.literal?_eq_some_iff, hgiven] at hl'
      rw [← Option.some.inj hl']
      exact htaken

/-- A grant that is left out is admissible. -/
theorem admissible_grant (hgrant : ∀ e ∈ keywords, ofSpelling? e.1 ≠ some .internalAccessGrant) :
    Field.internalAccessGrant.Admissible keywords := by
  constructor
  · intro hrequired
    cases hrequired
  · rintro l ⟨key, hkey, hspelled⟩
    exact absurd hspelled (hgrant _ hkey)

/-- The fault of a field is a malformed identity with its name and the literal that was given, if any. -/
theorem malformed_of_fault? {fault : Fault} (h : Spelled keywords)
    (hwritable : Literal.entriesWritable keywords = true)
    (hfault : f.fault? (f.literal? keywords) = some fault) :
    ∃ x, fault = .malformed x ∧ x.field = f.name ∧
      (Gives keywords f x.literal ∨ x.literal = .absent ∧ ∀ l, ¬ Gives keywords f l) := by
  obtain ⟨reason, rfl⟩ := exists_reason_of_fault? hfault
  cases hgiven : f.literal? keywords with
  | none =>
    refine ⟨⟨f.name, .absent, reason⟩, Fault.of_writable rfl, rfl, Or.inr ⟨rfl, ?_⟩⟩
    intro l hl
    rw [← h.literal?_eq_some_iff, hgiven] at hl
    cases hl
  | some l =>
    have hl : Gives keywords f l := h.literal?_eq_some_iff.mp hgiven
    have ⟨key, hkey, _⟩ := hl
    have hshown : l.isWritable = true := Literal.entriesWritable_iff.mp hwritable _ hkey
    exact ⟨⟨f.name, l, reason⟩, Fault.of_writable hshown, rfl, Or.inl hl⟩

end Field

/-! ## The grant that is held -/

namespace Builder

variable {b : Builder} {keywords : Entries}

/-- With tests a grant returns only for a name. -/
theorem isName_of_grant {name : Literal} {r : Option Descriptor} (hincluded : b.excludeTests = false)
    (h : (b.call (.grant name)).result = .ok r) : ∃ s, name = .text s ∧ Counterpart.IsName s := by
  have hopen := phase_of_ok h
  cases hname : Counterpart.ofLiteral Field.internalAccessGrant.name name with
  | error fault =>
    simp [call, grantAccess, hopen, hincluded, hname, failed, Except.map] at h
  | ok s =>
    exact ⟨s, Counterpart.eq_text_of_ofLiteral hname, Counterpart.isName_of_ofLiteral hname⟩

/-- What a builder holds, if anything, is a name. -/
def HoldsName (b : Builder) : Prop :=
  ∀ name ∈ b.grant, Counterpart.IsName name

theorem holdsName_call (h : b.HoldsName) (c : Call) : (b.call c).builder.HoldsName := by
  have hstep := step_call b c
  generalize hreply : b.call c = reply at hstep
  cases hstep with
  | failed | skipped | declared => exact h
  | granted name _ hincluded =>
    obtain ⟨s, hs, hname⟩ := isName_of_grant hincluded (congrArg Reply.result hreply)
    obtain rfl := Literal.text.inj hs
    rintro _ ⟨⟩
    exact hname

/-- **Only names come to be held.** -/
theorem holdsName_run (excludeTests : Bool) (calls : List Call) :
    ((Builder.mk excludeTests none none .undeclared).run calls).HoldsName := by
  induction calls using List.reverseRecOn with
  | nil =>
    intro name hname
    cases hname
  | append_singleton calls c ih =>
    rw [run_append_singleton]
    exact holdsName_call ih c

/-- A name that is held is no fault. -/
theorem fault?_heldLiteral (h : b.HoldsName) :
    Field.internalAccessGrant.fault? (some b.heldLiteral) = none := by
  rw [Field.fault?, Option.map_eq_none_iff, heldLiteral]
  cases hgrant : b.grant with
  | none => rfl
  | some name =>
    have hname := Counterpart.ofLiteral_name Field.internalAccessGrant.name (h name hgrant)
    simp only [Field.problem?, Option.map_some, Option.getD_some, Coercion.grant, hname]
    rfl

/-! ## Declarations -/

/-- With the grant that is held every field has the fault that it has by itself. -/
theorem fault?_withHeld (hheld : b.HoldsName) (h : Spelled keywords)
    (hgrant : ∀ e ∈ keywords, Field.ofSpelling? e.1 ≠ some .internalAccessGrant) (f : Field) :
    f.fault? (f.literal? (Declaration.withHeld keywords b.grant)) = f.fault? (f.literal? keywords) := by
  have hadded := Declaration.spelled_withHeld b.grant h hgrant
  by_cases hf : f = .internalAccessGrant
  · subst hf
    rw [Declaration.literal?_withHeld_grant hadded,
      (Field.admissible_iff h).mp (Field.admissible_grant hgrant)]
    exact fault?_heldLiteral hheld
  · rw [Declaration.literal?_withHeld hadded hf]

/-- The fault of a declaration is that of the first field that has one. -/
theorem declaration_eq_error_iff {e : BuildError} (hopen : b.phase = .undeclared) (hheld : b.HoldsName)
    (h : Spelled keywords)
    (hgrant : ∀ e ∈ keywords, Field.ofSpelling? e.1 ≠ some .internalAccessGrant) :
    b.declaration keywords = .error e ↔
      ∃ fault, e = .fault fault ∧
        (Field.all.findSome? fun f => f.fault? (f.literal? keywords)) = some fault := by
  have hadded := Declaration.spelled_withHeld b.grant h hgrant
  have hfirst (fault : Fault) :
      (ofEntries (Declaration.withHeld keywords b.grant)).surfaced = .error fault ↔
        (Field.all.findSome? fun f => f.fault? (f.literal? keywords)) = some fault := by
    rw [surfaced_eq_error_iff hadded.extraIssues_eq_nil]
    simp only [fault?_withHeld hheld h hgrant]
  have hread : b.declaration keywords =
      (ofEntries (Declaration.withHeld keywords b.grant)).surfaced.mapError .fault :=
    declaration_of_spelled hopen h hgrant
  simp only [hread, ← hfirst]
  cases (ofEntries (Declaration.withHeld keywords b.grant)).surfaced <;>
    simp [Except.mapError, eq_comm]

theorem result_declare (b : Builder) (keywords : Entries) :
    (b.declare keywords).result = b.declaration keywords := by
  unfold declare
  split
  · rename_i e he
    exact he.symm
  · rename_i d hd
    exact hd.symm

/-- **An open builder declares keywords exactly where each field is admissible by itself. Otherwise it
refuses them for a malformed identity with the name of the first field that is not admissible and the literal
that was given for it, whatever the spelling and the order of the keywords.** -/
theorem declares_admissible_or_names_first (excludeTests : Bool) (calls : List Call) (keywords : Entries)
    (hopen : ((Builder.mk excludeTests none none .undeclared).run calls).descriptor = none) (h : Spelled keywords)
    (hgrant : ∀ e ∈ keywords, Field.ofSpelling? e.1 ≠ some .internalAccessGrant)
    (hwritable : Literal.entriesWritable keywords = true) :
    let result := (((Builder.mk excludeTests none none .undeclared).run calls).declare keywords).result
    ((∃ d, result = .ok d) ↔ ∀ f, f ≠ Field.internalAccessGrant → f.Admissible keywords) ∧
      ∀ e, result = .error e →
        ∃ x f before after, e = .fault (.malformed x) ∧ Field.all = before ++ f :: after ∧
          f ≠ .internalAccessGrant ∧ ¬ f.Admissible keywords ∧
          (∀ g ∈ before, g.Admissible keywords) ∧ x.field = f.name ∧
          (Gives keywords f x.literal ∨ x.literal = .absent ∧ ∀ l, ¬ Gives keywords f l) := by
  intro result
  have hresult : result = ((Builder.mk excludeTests none none .undeclared).run calls).declaration keywords :=
    result_declare _ keywords
  have hfree := Field.admissible_grant hgrant
  have hundeclared := (agrees_run (agrees_fresh excludeTests) calls).mpr hopen
  have herror (e : BuildError) :=
    declaration_eq_error_iff (e := e) hundeclared (holdsName_run excludeTests calls) h hgrant
  simp only [← hresult] at herror
  constructor
  · constructor
    · rintro ⟨d, hd⟩ f -
      rw [Field.admissible_iff h]
      by_contra hfault
      -- A field with a fault would make the declaration fail.
      cases hfirst : Field.all.findSome? fun f => f.fault? (f.literal? keywords) with
      | none => exact hfault (List.findSome?_eq_none_iff.mp hfirst f (Field.mem_all f))
      | some fault =>
        have hfailed := (herror _).mpr ⟨fault, rfl, hfirst⟩
        rw [hd] at hfailed
        cases hfailed
    · intro hall
      cases hread : result with
      | ok d => exact ⟨d, rfl⟩
      | error e =>
        obtain ⟨fault, -, hfirst⟩ := (herror e).mp hread
        obtain ⟨f, -, hfault⟩ := List.exists_of_findSome?_eq_some hfirst
        have hadmissible : f.Admissible keywords := by
          by_cases hf : f = .internalAccessGrant
          · rw [hf]
            exact hfree
          · exact hall f hf
        rw [(Field.admissible_iff h).mp hadmissible] at hfault
        cases hfault
  · intro e he
    obtain ⟨fault, rfl, hfirst⟩ := (herror e).mp he
    obtain ⟨before, f, after, hfields, hfault, hclean⟩ := List.findSome?_eq_some_iff.mp hfirst
    obtain ⟨x, rfl, hx⟩ := Field.malformed_of_fault? h hwritable hfault
    have hflawed : ¬ f.Admissible keywords := by
      rw [Field.admissible_iff h, hfault]
      exact Option.some_ne_none _
    refine ⟨x, f, before, after, rfl, hfields, ?_, hflawed, ?_, hx⟩
    · rintro rfl
      exact hflawed hfree
    · intro g hg
      exact (Field.admissible_iff h).mpr (hclean g hg)

/-- Keywords with a blank text, a strange word for a flag, a version of two parts and a version left out. -/
def lackingKeywords : Entries :=
  [("fileVersion", .text "1.2"), ("interop_visible", .text "perhaps"), ("organization", .text " "),
    ("productName", .text "W"), ("title", .text "W"),
    ("unique_id", .text "97DB45A8-F922-456A-A819-7B3C6E5E03BA")]

/-- A builder with a grant, after calls that failed, declares the sample keywords, so their fields are
admissible; it refuses the others for the blank text, though the version of two parts is given first. -/
theorem sampleCalls_declare_or_name :
    let b := (Builder.mk false none none .undeclared).run (sampleCalls.take 7)
    b.descriptor = none ∧ (∀ f, f ≠ Field.internalAccessGrant → f.Admissible sampleKeywords) ∧
      ∃ x, (b.declare lackingKeywords).result = .error (.fault (.malformed x)) ∧
        x.field = "organization" ∧ Gives lackingKeywords .organization x.literal := by
  intro b
  have hopen : b.descriptor = none := by decide +kernel
  have hsample : Spelled sampleKeywords := ⟨by decide +kernel, by decide +kernel⟩
  have hlacking : Spelled lackingKeywords := ⟨by decide +kernel, by decide +kernel⟩
  obtain ⟨haccepts, -⟩ := declares_admissible_or_names_first false (sampleCalls.take 7) sampleKeywords hopen
    hsample (by decide +kernel) (by decide +kernel)
  obtain ⟨-, hnames⟩ := declares_admissible_or_names_first false (sampleCalls.take 7) lackingKeywords hopen
    hlacking (by decide +kernel) (by decide +kernel)
  have hdeclared : (b.declare sampleKeywords).result = .ok sampleDescriptor :=
    eq_ok_of_toOption (by decide +kernel)
  have hrefused : (errorOf? (b.declare lackingKeywords).result).bind BuildError.malformedField? =
      some "organization" := by decide +kernel
  obtain ⟨e, he, hnamed⟩ := Option.bind_eq_some_iff.mp hrefused
  have hresult := errorOf?_eq_some_iff.mp he
  obtain ⟨x, f, before, after, rfl, -, -, -, -, hfield, hliteral⟩ := hnames e hresult
  have hnamed : x.field = "organization" := Option.some.inj hnamed
  have hf : f = .organization := by
    have hspelled := Field.ofSpelling?_name f
    rw [← hfield, hnamed] at hspelled
    exact (Option.some.inj hspelled).symm
  subst hf
  refine ⟨hopen, haccepts.mp ⟨_, hdeclared⟩, x, hresult, hnamed, ?_⟩
  rcases hliteral with hliteral | ⟨-, hnone⟩
  · exact hliteral
  · exact absurd ⟨"organization", by simp [lackingKeywords], by decide +kernel⟩ (hnone (.text " "))

end Builder

end ArtifactIdentity
