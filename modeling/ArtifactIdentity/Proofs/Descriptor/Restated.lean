import ArtifactIdentity.Proofs.Descriptor.Admission
import ArtifactIdentity.Proofs.Descriptor.HandedOut
import ArtifactIdentity.Proofs.Descriptor.Repeated
import ArtifactIdentity.Proofs.Identity.VersionGrammar

/-!
# Declaring what a descriptor answers

A descriptor answers for each of its fields with the value that it keeps, and each value is in the form in which
its own rule leaves it. So the answers can be declared again, a version also as a list or as its dotted text, and
what is declared is the same descriptor. Conversely whatever keywords are accepted, a text comes back as it was
given, and an identifier or a version as what its literal is read as.
-/

namespace ArtifactIdentity

/-! ## Values and the literals that restate them -/

/-- A literal restates a value: it is the value itself, or for a version the list of its numbers or its text. -/
def Literal.RestatedBy (value l : Literal) : Prop :=
  l = value ∨
    ∃ v : Version, value = v.toLiteral ∧
      (l = .list (v.components.map fun n => .integer n) ∨ l = .text v.text)

namespace Version

theorem toLiteral_injective {v w : Version} (h : v.toLiteral = w.toLiteral) : v = w := by
  obtain ⟨a, b, c, d⟩ := v
  obtain ⟨a', b', c', d'⟩ := w
  simpa only [toLiteral, Literal.quad.injEq, Literal.integer.injEq, Int.ofNat_inj, mk.injEq] using h

/-- The four numbers of a version are read as that version, in whatever sequence they stand. -/
theorem ofLiteral_components (field : String) {v : Version} {l : Literal} (h : v.InRange)
    (htext : ∀ s, l ≠ .text s) (hitems : l.items? = some (v.components.map fun n => .integer n)) :
    ofLiteral field l = .ok v := by
  rw [ofLiteral_of_items htext hitems]
  exact ofIntegers_components field l h

/-- **Each literal that restates a version within the range is read as that version.** -/
theorem ofLiteral_of_restatedBy (field : String) {v : Version} {l : Literal} (h : v.InRange)
    (hl : v.toLiteral.RestatedBy l) : ofLiteral field l = .ok v := by
  rcases hl with rfl | ⟨w, hw, hl⟩
  · exact ofLiteral_components field h (by intro s hs; cases hs) rfl
  · obtain rfl := toLiteral_injective hw
    rcases hl with rfl | rfl
    · exact ofLiteral_components field h (by intro s hs; cases hs) rfl
    · exact ofLiteral_text field h

end Version

namespace Descriptor

variable {d : Descriptor} {f : Field} {l : Literal}

/-- A descriptor answers under either spelling of a field. -/
theorem query_of_spelling {key : String} (h : Field.ofSpelling? key = some f) :
    d.query (.text key) = .ok (d.get f) := by
  simp only [query, h]

/-- A value that is no version is restated by itself alone. -/
theorem eq_get_of_restatedBy (hassembly : f ≠ .assemblyVersion) (hfile : f ≠ .fileVersion)
    (h : (d.get f).RestatedBy l) : l = d.get f := by
  rcases h with h | ⟨v, hv, -⟩
  · exact h
  · exfalso
    cases f with
    | assemblyVersion => exact hassembly rfl
    | fileVersion => exact hfile rfl
    | internalAccessGrant => cases hgrant : d.internalAccessGrant <;> simp [get, hgrant, Version.toLiteral] at hv
    | _ => cases hv

/-- A value that is no version stands in a block as it is. -/
theorem toLiteral_fact (hassembly : f ≠ .assemblyVersion) (hfile : f ≠ .fileVersion) :
    (d.fact f).toLiteral = d.get f := by
  cases f with
  | assemblyVersion => exact absurd rfl hassembly
  | fileVersion => exact absurd rfl hfile
  | internalAccessGrant => cases hgrant : d.internalAccessGrant <;> simp [get, fact, hgrant, Fact.toLiteral]
  | _ => rfl

/-- **The value that a well-formed descriptor has in a field is stated by every literal that restates it.** -/
theorem WellFormed.states_of_restatedBy (h : d.WellFormed) (hl : (d.get f).RestatedBy l) : d.States f l := by
  by_cases hassembly : f = .assemblyVersion
  · subst hassembly
    exact ruled_eq_ok_iff.mpr (Version.ofLiteral_of_restatedBy _ h.assemblyVersion hl)
  · by_cases hfile : f = .fileVersion
    · subst hfile
      exact ruled_eq_ok_iff.mpr (Version.ofLiteral_of_restatedBy _ h.fileVersion hl)
    · rw [eq_get_of_restatedBy hassembly hfile hl, ← toLiteral_fact hassembly hfile]
      exact states_fact h f

/-! ## Answers as keywords -/

/-- Keywords that give for each field, under either spelling, what a descriptor answers there, in whatever form
restates it. -/
structure ReadBack (d : Descriptor) (keywords : Entries) : Prop where
  spelled : Spelled keywords
  complete : ∀ f : Field, ∃ e ∈ keywords, Field.ofSpelling? e.1 = some f
  answered : ∀ e ∈ keywords, ∃ value, d.query (.text e.1) = .ok value ∧ value.RestatedBy e.2

namespace ReadBack

variable {keywords : Entries}

theorem exists_literal? (h : d.ReadBack keywords) (f : Field) :
    ∃ l, f.literal? keywords = some l ∧ (d.get f).RestatedBy l := by
  obtain ⟨⟨key, l⟩, he, hf⟩ := h.complete f
  obtain ⟨value, hvalue, hl⟩ := h.answered _ he
  rw [query_of_spelling hf] at hvalue
  obtain rfl := Except.ok.inj hvalue
  exact ⟨l, h.spelled.literal?_eq_some_iff.mpr ⟨key, he, hf⟩, hl⟩

/-- The answers of a well-formed descriptor are read as the table of that descriptor. -/
theorem ofEntries_eq_sound (h : d.ReadBack keywords) (hd : d.WellFormed) :
    ofEntries keywords = .sound d := by
  rw [ofEntries_eq_sound_iff]
  constructor
  · intro f
    obtain ⟨l, hgiven, hl⟩ := h.exists_literal? f
    rw [statedBy_iff, hgiven]
    exact hd.states_of_restatedBy hl
  · exact extraIssues_eq_nil_iff.mp h.spelled.extraIssues_eq_nil

/-- The grant among the answers is the one that the descriptor has. -/
theorem held_grantOf (h : d.ReadBack keywords) (hd : d.WellFormed) :
    Declaration.held false (Declaration.grantOf keywords) = .ok d.internalAccessGrant := by
  obtain ⟨l, hgiven, hl⟩ := h.exists_literal? .internalAccessGrant
  have hstates : Coercion.grant l = .ok d.internalAccessGrant := hd.states_of_restatedBy hl
  rw [← ruled_eq_ok_iff, Declaration.ruled_held, Declaration.grantOf_eq, hgiven]
  exact hstates

/-- **The answers of a well-formed descriptor are declared as that descriptor.** -/
theorem result_declare (h : d.ReadBack keywords) (hd : d.WellFormed) : (declare keywords).result = .ok d :=
  (sound_iff_declare_eq_ok h.spelled).mp (h.ofEntries_eq_sound hd)

/-- An open builder with the grant of the descriptor declares the other answers. -/
theorem result_declare_builder {b : Builder} (h : d.ReadBack keywords) (hd : d.WellFormed)
    (hopen : b.phase = .undeclared) (hgrant : b.grant = d.internalAccessGrant) :
    (b.declare (Declaration.fieldsOf keywords)).result = .ok d := by
  have hfree : ∀ e ∈ Declaration.fieldsOf keywords,
      Field.ofSpelling? e.1 ≠ some .internalAccessGrant := by
    intro e he
    exact ((Declaration.mem_fieldsOf_iff h.spelled).mp he).2
  have hread : (ofEntries (Declaration.withHeld (Declaration.fieldsOf keywords) b.grant)).surfaced =
      .ok d := by
    rw [hgrant, Declaration.surfaced_withHeld h.spelled (h.held_grantOf hd)]
    exact Checked.surfaced_eq_ok_iff.mpr (h.ofEntries_eq_sound hd)
  rw [Builder.result_declare,
    Builder.declaration_of_spelled hopen (Declaration.spelled_fieldsOf h.spelled) hfree]
  exact congrArg (Except.mapError BuildError.fault) hread

end ReadBack

end Descriptor

namespace Declaration

variable {before after : Entries}

/-- To say that tests are not excluded is to say nothing of them. -/
theorem declare_including_tests (h : Descriptor.Spelled (before ++ after)) :
    declare (before ++ (excludeTestsKeyword, .flag false) :: after) = declare (before ++ after) := by
  have hunknown : Field.ofSpelling? excludeTestsKeyword = none := by decide +kernel
  have hbefore : before.lookup excludeTestsKeyword = none := by
    rw [List.lookup_eq_none_iff]
    intro e he
    rw [bne_iff_ne]
    intro hkey
    have hknown := h.known e (List.mem_append_left _ he)
    rw [← hkey, hunknown] at hknown
    cases hknown
  have htests : excludesTests (before ++ (excludeTestsKeyword, .flag false) :: after) = false := by
    simp [excludesTests, List.lookup_append, hbefore, Literal.truthy]
  have hlookup {key : String} (hkey : key ≠ excludeTestsKeyword) :
      (before ++ (excludeTestsKeyword, .flag false) :: after).lookup key = (before ++ after).lookup key := by
    rw [List.lookup_append, Table.lookup_cons_of_ne hkey, ← List.lookup_append]
  have hgrant : grantOf (before ++ (excludeTestsKeyword, .flag false) :: after) =
      grantOf (before ++ after) := by
    rw [grantOf, hlookup (by decide), hlookup (by decide)]
    rfl
  have hfields : fieldsOf (before ++ (excludeTestsKeyword, .flag false) :: after) =
      fieldsOf (before ++ after) := by
    simp [fieldsOf, ownKeywords]
  rw [declare, htests, hgrant, hfields, ← excludesTests_of_spelled h, ← declare]

end Declaration

/-! ## What is kept of a literal -/

/-- What a field keeps of a literal: a text as it is given, an identifier and a version as they are read, a flag
as what it stands for, and the grant unchanged. -/
def Field.Keeps : Field → Literal → Literal → Prop
  | .title, l, value | .description, l, value | .configurationTag, l, value | .organization, l, value
  | .productName, l, value | .copyright, l, value | .trademark, l, value | .culture, l, value =>
    ∀ s, l = .text s → value = .text s
  | .uniqueId, l, value => ∃ id, UniqueId.ofLiteral uniqueId.name l = .ok id ∧ value = .text id
  | .assemblyVersion, l, value =>
    ∃ v, Version.ofLiteral assemblyVersion.name l = .ok v ∧ value = v.toLiteral
  | .fileVersion, l, value => ∃ v, Version.ofLiteral fileVersion.name l = .ok v ∧ value = v.toLiteral
  | .interopVisible, l, value | .complianceChecked, l, value =>
    ∃ b, Coercion.flag l = .ok b ∧ value = .flag b
  | .internalAccessGrant, l, value => value = l

/-- A text that is not refused is the text of its field. -/
theorem Coercion.eq_of_shownText {f : Field} {s t : String} (h : shownText f (.text s) = .ok t) : t = s := by
  simp only [shownText] at h
  split at h
  · cases h
  · exact (Except.ok.inj h).symm

/-- A literal that the rule of the grant takes is the grant. -/
theorem Coercion.eq_of_grant {l : Literal} {name : Option String} (h : grant l = .ok name) :
    (name.map Literal.text).getD .absent = l := by
  unfold grant at h
  split at h
  · obtain rfl := Except.ok.inj h
    rfl
  · rw [Descriptor.ruled_eq_ok_iff] at h
    cases hname : Counterpart.ofLiteral Field.internalAccessGrant.name l with
    | error fault =>
      rw [hname] at h
      cases h
    | ok s =>
      rw [hname] at h
      obtain rfl := Except.ok.inj h
      exact (Counterpart.eq_text_of_ofLiteral hname).symm

namespace Descriptor

variable {d : Descriptor} {f : Field} {l : Literal} {keywords : Entries}

/-- **A field keeps of a literal the value that the literal states.** -/
theorem States.keeps (h : d.States f l) : f.Keeps l (d.get f) := by
  cases f with
  | title | organization | productName =>
    rintro s rfl
    exact congrArg Literal.text (Coercion.eq_of_shownText h)
  | description | configurationTag | copyright | trademark | culture =>
    rintro s rfl
    exact congrArg Literal.text (Except.ok.inj h).symm
  | uniqueId => exact ⟨_, ruled_eq_ok_iff.mp h, rfl⟩
  | assemblyVersion => exact ⟨_, ruled_eq_ok_iff.mp h, rfl⟩
  | fileVersion => exact ⟨_, ruled_eq_ok_iff.mp h, rfl⟩
  | interopVisible => exact ⟨_, h, rfl⟩
  | complianceChecked => exact ⟨_, h, rfl⟩
  | internalAccessGrant => exact Coercion.eq_of_grant h

end Descriptor

namespace Builder

open Descriptor

variable {b : Builder} {keywords : Entries} {d : Descriptor}

/-- What a builder declares is the table of the keywords with the grant that is held. -/
theorem sound_of_declaration (h : b.declaration keywords = .ok d) :
    Spelled keywords ∧ (∀ e ∈ keywords, Field.ofSpelling? e.1 ≠ some .internalAccessGrant) ∧
      ofEntries (Declaration.withHeld keywords b.grant) = .sound d := by
  have hopen : b.phase = .undeclared := (grant_of_declaration h).1
  have hspelled : Spelled keywords := by
    by_contra hmisnamed
    obtain ⟨e, -, he⟩ := exists_misnamed hmisnamed
    rw [he b hopen] at h
    cases h
  have hfree : ∀ e ∈ keywords, Field.ofSpelling? e.1 ≠ some .internalAccessGrant := by
    rintro ⟨key, l⟩ he hf
    rw [declaration_of_grant hopen hspelled ⟨key, he, hf⟩] at h
    cases h
  refine ⟨hspelled, hfree, ?_⟩
  rw [declaration_of_spelled hopen hspelled hfree] at h
  change (ofEntries (Declaration.withHeld keywords b.grant)).surfaced.mapError BuildError.fault =
    .ok d at h
  cases hread : (ofEntries (Declaration.withHeld keywords b.grant)).surfaced with
  | error fault =>
    rw [hread] at h
    cases h
  | ok found =>
    rw [hread] at h
    obtain rfl : found = d := Except.ok.inj h
    exact Checked.surfaced_eq_ok_iff.mp hread

/-- A keyword of a declaration states the value of its field. -/
theorem states_of_declaration {f : Field} {key : String} {l : Literal} (h : b.declaration keywords = .ok d)
    (hmem : (key, l) ∈ keywords) (hf : Field.ofSpelling? key = some f) : d.States f l := by
  obtain ⟨hspelled, hfree, hsound⟩ := sound_of_declaration h
  have hgrant : f ≠ .internalAccessGrant := by
    rintro rfl
    exact hfree _ hmem hf
  have hgiven : f.literal? (Declaration.withHeld keywords b.grant) = some l := by
    rw [Declaration.literal?_withHeld (Declaration.spelled_withHeld b.grant hspelled hfree) hgrant]
    exact hspelled.literal?_eq_some_iff.mpr ⟨key, hmem, hf⟩
  have hstated := statedBy_iff.mp ((ofEntries_eq_sound_iff.mp hsound).1 f)
  rwa [hgiven] at hstated

end Builder

namespace Declaration

open Descriptor

variable {keywords : Entries} {d : Descriptor}

/-- A declaration in one step is one of a builder that holds the grant. -/
theorem exists_declaration (h : (declare keywords).result = .ok d) :
    ∃ name, held (excludesTests keywords) (grantOf keywords) = .ok name ∧
      (Builder.mk (excludesTests keywords) name none .undeclared).declaration (fieldsOf keywords) = .ok d := by
  rw [declare, result_onBuilder_eq] at h
  cases hheld : held (excludesTests keywords) (grantOf keywords) with
  | error fault =>
    rw [hheld] at h
    cases h
  | ok name =>
    rw [hheld] at h
    exact ⟨name, rfl, (Builder.result_declare _ _).symm.trans h⟩

/-- Where tests are not excluded, the grant is the literal that is given for it. -/
theorem get_grant_of_declare (h : (declare keywords).result = .ok d) (htests : excludesTests keywords = false) :
    d.get .internalAccessGrant = grantOf keywords := by
  obtain ⟨name, hheld, hdeclaration⟩ := exists_declaration h
  obtain ⟨hspelled, hfree, hsound⟩ := Builder.sound_of_declaration hdeclaration
  have hname : (name.map Literal.text).getD .absent = grantOf keywords := by
    apply Coercion.eq_of_grant
    rw [htests] at hheld
    rw [← ruled_held, hheld]
    rfl
  have hkept := grant_of_ofEntries hsound
  rw [literal?_withHeld_grant (spelled_withHeld name hspelled hfree), Option.getD_some] at hkept
  exact (Coercion.eq_of_grant hkept).trans hname

end Declaration

namespace Descriptor

/-- **What a descriptor answers for its fields is declared again as that descriptor, under any spelling and in
any order, the versions in any form: in one step, with or without saying that tests are not excluded, and by any
open builder that holds its grant. Whatever keywords are declared, in one step or by a builder, a descriptor
answers for each field that they give with what the field keeps of the literal; where tests are not excluded the
grant comes back as well.** -/
theorem declares_own_answers :
    (∀ (d : Descriptor) (keywords : Entries), d.HandedOut → d.ReadBack keywords →
      (declare keywords).result = .ok d ∧
        (∀ before after, keywords = before ++ after →
          (declare (before ++ (Declaration.excludeTestsKeyword, .flag false) :: after)).result = .ok d) ∧
        ∀ b : Builder, b.phase = .undeclared → b.grant = d.internalAccessGrant →
          (b.declare (Declaration.fieldsOf keywords)).result = .ok d) ∧
      (∀ (keywords : Entries) (d : Descriptor), (declare keywords).result = .ok d →
        (∀ key key' f l, (key, l) ∈ keywords → Field.ofSpelling? key = some f →
          Field.ofSpelling? key' = some f → f ≠ .internalAccessGrant →
            ∃ value, d.query (.text key') = .ok value ∧ f.Keeps l value) ∧
          (Declaration.excludesTests keywords = false →
            ∀ key', Field.ofSpelling? key' = some .internalAccessGrant →
              d.query (.text key') = .ok (Declaration.grantOf keywords))) ∧
      ∀ (b : Builder) (keywords : Entries) (d : Descriptor), (b.declare keywords).result = .ok d →
        ∀ key key' f l, (key, l) ∈ keywords → Field.ofSpelling? key = some f →
          Field.ofSpelling? key' = some f → ∃ value, d.query (.text key') = .ok value ∧ f.Keeps l value := by
  refine ⟨?_, ?_, ?_⟩
  · intro d keywords hout hback
    have hd := wellFormed_of_handedOut hout
    refine ⟨hback.result_declare hd, ?_, fun b => hback.result_declare_builder hd⟩
    rintro before after rfl
    rw [Declaration.declare_including_tests hback.spelled]
    exact hback.result_declare hd
  · intro keywords d hdeclared
    obtain ⟨name, hheld, hdeclaration⟩ := Declaration.exists_declaration hdeclared
    constructor
    · intro key key' f l hmem hf hf' hgrant
      have hhanded := Declaration.mem_fieldsOf_of_spelling hmem hf hgrant
      exact ⟨_, query_of_spelling hf', (Builder.states_of_declaration hdeclaration hhanded hf).keeps⟩
    · intro htests key' hf'
      rw [query_of_spelling hf', Declaration.get_grant_of_declare hdeclared htests]
  · intro b keywords d hdeclared key key' f l hmem hf hf'
    rw [Builder.result_declare] at hdeclared
    exact ⟨_, query_of_spelling hf', (Builder.states_of_declaration hdeclared hmem hf).keeps⟩

/-- The answers of the descriptor with every escape, the last field first, under block names, with one version as a
text and the other as a list. -/
def escapedAnswers : Entries :=
  Field.all.reverse.map fun f =>
    (f.blockName,
      match f with
      | .assemblyVersion => .text "1.2.3.65534"
      | .fileVersion => .list [.integer 1, .integer 0, .integer 0, .integer 7]
      | _ => Block.escapedDescriptor.get f)

theorem readBack_escapedAnswers : Block.escapedDescriptor.ReadBack escapedAnswers := by
  constructor
  · exact ⟨by decide +kernel, by decide +kernel⟩
  · intro f
    refine ⟨_, List.mem_map_of_mem (List.mem_reverse.mpr (Field.mem_all f)), ?_⟩
    exact Field.ofSpelling?_eq_some_iff.mpr (Or.inr rfl)
  · intro e he
    obtain ⟨f, -, rfl⟩ := List.mem_map.mp he
    refine ⟨_, query_of_spelling (Field.ofSpelling?_eq_some_iff.mpr (Or.inr rfl)), ?_⟩
    cases f with
    | assemblyVersion =>
      exact Or.inr ⟨⟨1, 2, 3, 65534⟩, rfl, Or.inr (congrArg Literal.text (by decide +kernel))⟩
    | fileVersion => exact Or.inr ⟨⟨1, 0, 0, 7⟩, rfl, Or.inl rfl⟩
    | _ => exact Or.inl rfl

/-- That descriptor is declared again from its answers. The sample keywords are declared, and their grant, the
identifier in upper case and the padded version are answered as they are kept. -/
theorem escaped_declares_own_answers :
    Block.escapedDescriptor.HandedOut ∧ Block.escapedDescriptor.ReadBack escapedAnswers ∧
      (declare escapedAnswers).result = .ok Block.escapedDescriptor ∧
      (declare mixedKeywords).result = .ok Builder.sampleDescriptor ∧
      Builder.sampleDescriptor.query (.text "internal_access_grant") = .ok (.text "W.Tests") ∧
      (∃ value, Builder.sampleDescriptor.query (.text "unique_id") = .ok value ∧
        Field.uniqueId.Keeps (.text "97DB45A8-F922-456A-A819-7B3C6E5E03BA") value) ∧
      ∃ value, Builder.sampleDescriptor.query (.text "fileVersion") = .ok value ∧
        Field.fileVersion.Keeps (.text "01.2.3.4") value := by
  obtain ⟨hagain, hkept, -⟩ := declares_own_answers
  have hout : Block.escapedDescriptor.HandedOut :=
    .validated Block.escapedLiteral _ (by decide +kernel)
  have hdeclared : (declare mixedKeywords).result = .ok Builder.sampleDescriptor :=
    eq_ok_of_toOption (by decide +kernel)
  obtain ⟨hfields, hgrant⟩ := hkept mixedKeywords _ hdeclared
  refine ⟨hout, readBack_escapedAnswers, (hagain _ _ hout readBack_escapedAnswers).1, hdeclared, ?_, ?_, ?_⟩
  · exact hgrant rfl "internal_access_grant" (by decide +kernel)
  · exact hfields "uniqueId" "unique_id" .uniqueId _ (by simp [mixedKeywords]) (by decide +kernel)
      (by decide +kernel) (by decide)
  · exact hfields "fileVersion" "fileVersion" .fileVersion _ (by simp [mixedKeywords]) (by decide +kernel)
      (by decide +kernel) (by decide)

end Descriptor

end ArtifactIdentity
