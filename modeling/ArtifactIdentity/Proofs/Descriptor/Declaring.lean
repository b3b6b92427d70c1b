import ArtifactIdentity.Proofs.Descriptor.Spelling

/-!
# Declaring keywords and reading a table

A declaration renames its keywords to the fields they spell and hands the grant to a builder; reading a
table looks each field up under both of its spellings. Where the keys spell fields and no two of them the
same, both come to one and the same: the descriptors are equal, and so are the faults where the grant by
itself is no fault.
-/

namespace ArtifactIdentity

namespace Declaration

open Descriptor

variable {excludeTests : Bool} {grant : Literal} {fields keywords : Entries}

/-- The name that a fresh builder holds after a grant, if one is asked for. -/
def held (excludeTests : Bool) (grant : Literal) : Except Fault (Option String) :=
  if grant.isAbsent || excludeTests then .ok none
  else (Counterpart.ofLiteral Field.internalAccessGrant.name grant).map some

/-- Fields together with the name that is held. -/
def withHeld (fields : Entries) (name : Option String) : Entries :=
  fields ++ [(Field.internalAccessGrant.name, (name.map Literal.text).getD .absent)]

/-- A declaration on a fresh builder is the grant, and then the declaration on the builder that holds it. -/
theorem result_onBuilder_eq (excludeTests : Bool) (grant : Literal) (fields : Entries) :
    (onBuilder excludeTests grant fields).result =
      match held excludeTests grant with
      | .error fault => .error (.fault fault)
      | .ok name => ((Builder.mk excludeTests name none .undeclared).declare fields).result := by
  unfold onBuilder held
  by_cases habsent : grant.isAbsent = true
  · simp only [habsent, if_true, Bool.true_or]
  · simp only [habsent, Bool.false_or]
    cases excludeTests with
    | true => rfl
    | false =>
      simp only [Builder.grantAccess, reduceCtorEq, Bool.false_eq_true, if_false]
      cases Counterpart.ofLiteral Field.internalAccessGrant.name grant <;> rfl

/-- Where the fields are a table, what is held is read with them. -/
theorem result_onBuilder (h : Spelled fields)
    (hgrant : ∀ e ∈ fields, Field.ofSpelling? e.1 ≠ some .internalAccessGrant) :
    (onBuilder excludeTests grant fields).result =
      ((held excludeTests grant).bind fun name =>
        (ofEntries (withHeld fields name)).surfaced).mapError .fault := by
  have hdeclare (name : Option String) :
      ((Builder.mk excludeTests name none .undeclared).declare fields).result =
        (ofEntries (withHeld fields name)).surfaced.mapError .fault := by
    have hread := Builder.declaration_of_spelled (b := ⟨excludeTests, name, none, .undeclared⟩) rfl h hgrant
    rw [Builder.declare, hread]
    change _ = (ofEntries (fields ++ [(Field.internalAccessGrant.name,
      Builder.heldLiteral ⟨excludeTests, name, none, .undeclared⟩)])).surfaced.mapError BuildError.fault
    cases (ofEntries (fields ++ [(Field.internalAccessGrant.name,
      Builder.heldLiteral ⟨excludeTests, name, none, .undeclared⟩)])).surfaced <;> rfl
  rw [result_onBuilder_eq]
  cases held excludeTests grant with
  | error fault => rfl
  | ok name => exact hdeclare name

/-- What a builder without excluded tests comes to hold is what the rule of the grant makes of it. -/
theorem ruled_held (grant : Literal) : Coercion.ruled (held false grant) = Coercion.grant grant := by
  unfold held Coercion.grant
  cases grant <;> rfl

/-! ## Keywords that are fields -/

/-- Keywords that spell fields do not say that tests are excluded. -/
theorem excludesTests_of_spelled (h : Spelled keywords) : excludesTests keywords = false := by
  cases hlookup : keywords.lookup excludeTestsKeyword with
  | none => rw [excludesTests, hlookup]; rfl
  | some l =>
    have hknown := h.known _ (Table.mem_of_lookup hlookup)
    have hunknown : (Field.ofSpelling? excludeTestsKeyword).isSome = false := by decide +kernel
    rw [hunknown] at hknown
    cases hknown

/-- The grant of a declaration is what the keywords say of that field. -/
theorem grantOf_eq (keywords : Entries) :
    grantOf keywords = (Field.internalAccessGrant.literal? keywords).getD .absent := by
  unfold grantOf Field.literal? Field.given?
  cases keywords.lookup Field.internalAccessGrant.blockName with
  | some l => rfl
  | none => cases keywords.lookup Field.internalAccessGrant.name <;> rfl

/-- Of keywords that spell fields those are handed on that do not spell the grant. -/
theorem mem_fieldsOf_iff {e : String × Literal} (h : Spelled keywords) :
    e ∈ fieldsOf keywords ↔
      e ∈ keywords ∧ Field.ofSpelling? e.1 ≠ some .internalAccessGrant := by
  unfold fieldsOf
  rw [List.mem_filter]
  constructor
  · rintro ⟨he, hown⟩
    refine ⟨he, ?_⟩
    intro hgrant
    rcases Field.ofSpelling?_eq_some_iff.mp hgrant with hkey | hkey
    all_goals simp [ownKeywords, hkey] at hown
  · rintro ⟨he, hgrant⟩
    refine ⟨he, ?_⟩
    rw [Bool.not_eq_true', List.contains_eq_mem, decide_eq_false_iff_not]
    intro hown
    simp only [ownKeywords, List.mem_cons, List.not_mem_nil, or_false] at hown
    rcases hown with hkey | hkey | hkey
    · have hknown := h.known e he
      rw [hkey] at hknown
      exact absurd hknown (by decide +kernel)
    · exact hgrant (Field.ofSpelling?_eq_some_iff.mpr (Or.inl hkey))
    · exact hgrant (Field.ofSpelling?_eq_some_iff.mpr (Or.inr hkey))

theorem spelled_fieldsOf (h : Spelled keywords) : Spelled (fieldsOf keywords) :=
  h.sublist List.filter_sublist

theorem spelled_withHeld (name : Option String) (h : Spelled fields)
    (hgrant : ∀ e ∈ fields, Field.ofSpelling? e.1 ≠ some .internalAccessGrant) :
    Spelled (withHeld fields name) :=
  h.concat (Field.ofSpelling?_name _) hgrant

/-- What is held is what the table says of the grant. -/
theorem literal?_withHeld_grant {name : Option String} (h : Spelled (withHeld fields name)) :
    Field.internalAccessGrant.literal? (withHeld fields name) =
      some ((name.map Literal.text).getD .absent) :=
  h.literal?_eq_some_iff.mpr (gives_concat.mpr (Or.inr ⟨rfl, Field.ofSpelling?_name _⟩))

/-- What is held says nothing of the other fields. -/
theorem literal?_withHeld {f : Field} {name : Option String} (h : Spelled (withHeld fields name))
    (hf : f ≠ .internalAccessGrant) : f.literal? (withHeld fields name) = f.literal? fields := by
  have hfields : Spelled fields := h.sublist (List.sublist_append_left _ _)
  apply h.literal?_congr hfields
  intro l
  rw [withHeld, gives_concat, Field.ofSpelling?_name]
  constructor
  · rintro (hgives | ⟨-, hgrant⟩)
    · exact hgives
    · exact absurd (Option.some.inj hgrant).symm hf
  · exact Or.inl

/-- The keywords that are handed on say of the other fields what all keywords say. -/
theorem literal?_fieldsOf {f : Field} (h : Spelled keywords) (hf : f ≠ .internalAccessGrant) :
    f.literal? (fieldsOf keywords) = f.literal? keywords := by
  apply (spelled_fieldsOf h).literal?_congr h
  intro l
  constructor
  · rintro ⟨key, hkey, hspelled⟩
    exact ⟨key, ((mem_fieldsOf_iff h).mp hkey).1, hspelled⟩
  · rintro ⟨key, hkey, hspelled⟩
    refine ⟨key, (mem_fieldsOf_iff h).mpr ⟨hkey, ?_⟩, hspelled⟩
    rw [hspelled]
    intro hgrant
    exact hf (Option.some.inj hgrant)

/-- To hold no name is to give none. -/
theorem saySame_absent :
    Field.internalAccessGrant.SaySame none (some .absent) := by
  constructor
  · rfl
  · intro d
    constructor
    · intro h
      exact congrArg Except.ok (Eq.symm h)
    · intro h
      exact (Except.ok.inj h).symm

/-- What is held says the same of the grant as the literal that was accepted for it. -/
theorem saySame_held {given : Option Literal} {name : Option String}
    (h : held false (given.getD .absent) = .ok name) :
    Field.internalAccessGrant.SaySame given (some ((name.map Literal.text).getD .absent)) := by
  cases given with
  | none =>
    obtain rfl := Except.ok.inj h
    exact saySame_absent
  | some l =>
    by_cases habsent : l.isAbsent = true
    · cases l with
      | absent =>
        obtain rfl := Except.ok.inj h
        exact .refl _ _
      | _ => cases habsent
    · simp only [held, Option.getD_some, habsent, Bool.or_false, Bool.false_eq_true, if_false] at h
      cases hname : Counterpart.ofLiteral Field.internalAccessGrant.name l with
      | error fault =>
        rw [hname] at h
        cases h
      | ok s =>
        rw [hname] at h
        obtain rfl := Except.ok.inj h
        rw [Counterpart.eq_text_of_ofLiteral hname]
        exact .refl _ _

/-- **Where the grant is accepted, keywords that spell fields are read as the table that they are.** -/
theorem surfaced_withHeld {name : Option String} (h : Spelled keywords)
    (hheld : held false (grantOf keywords) = .ok name) :
    (ofEntries (withHeld (fieldsOf keywords) name)).surfaced = (ofEntries keywords).surfaced := by
  have hfree : ∀ e ∈ fieldsOf keywords, Field.ofSpelling? e.1 ≠ some .internalAccessGrant := by
    intro e he
    exact ((mem_fieldsOf_iff h).mp he).2
  have hadded := spelled_withHeld name (spelled_fieldsOf h) hfree
  apply surfaced_congr hadded.extraIssues_eq_nil h.extraIssues_eq_nil
  intro f
  by_cases hf : f = .internalAccessGrant
  · subst hf
    rw [grantOf_eq] at hheld
    have hsame := saySame_held hheld
    rw [literal?_withHeld_grant hadded]
    exact ⟨hsame.fault.symm, fun d => (hsame.facts d).symm⟩
  · rw [literal?_withHeld hadded hf, literal?_fieldsOf h hf]
    exact .refl f _

/-- A declaration from keywords that spell fields. -/
theorem result_declare (h : Spelled keywords) :
    (declare keywords).result =
      ((held false (grantOf keywords)).bind fun name =>
        (ofEntries (withHeld (fieldsOf keywords) name)).surfaced).mapError .fault := by
  rw [declare, excludesTests_of_spelled h]
  apply result_onBuilder (spelled_fieldsOf h)
  intro e he
  exact ((mem_fieldsOf_iff h).mp he).2

/-- An accepted grant leaves nothing to tell a declaration from a reading. -/
theorem result_declare_of_grant {name : Option String} (h : Spelled keywords)
    (hname : Coercion.grant (grantOf keywords) = .ok name) :
    (declare keywords).result = (ofEntries keywords).surfaced.mapError .fault := by
  rw [← ruled_held, ruled_eq_ok_iff] at hname
  rw [result_declare h, hname]
  exact congrArg (Except.mapError BuildError.fault) (surfaced_withHeld h hname)

end Declaration

namespace Descriptor

variable {entries : Entries}

/-- A descriptor is read from a table only where the rule of the grant accepts what is given for it. -/
theorem grant_of_ofEntries {d : Descriptor} (h : ofEntries entries = .sound d) :
    Coercion.grant ((Field.internalAccessGrant.literal? entries).getD .absent) =
      .ok d.internalAccessGrant := by
  have hstated := statedBy_iff.mp ((ofEntries_eq_sound_iff.mp h).1 .internalAccessGrant)
  cases hgiven : Field.internalAccessGrant.literal? entries with
  | none =>
    rw [hgiven] at hstated
    have hnone : d.internalAccessGrant = none := hstated
    rw [hnone]
    rfl
  | some l =>
    rw [hgiven] at hstated
    exact hstated

/-- An absent grant may be left out of a table. -/
theorem surfaced_without_absent {before after : Entries} {key : String}
    (h : Spelled (before ++ (key, .absent) :: after))
    (hkey : Field.ofSpelling? key = some .internalAccessGrant) :
    Spelled (before ++ after) ∧
      Field.internalAccessGrant.literal? (before ++ after) = none ∧
      (ofEntries (before ++ (key, .absent) :: after)).surfaced =
        (ofEntries (before ++ after)).surfaced := by
  have hsub : Spelled (before ++ after) :=
    h.sublist (List.Sublist.append_left (List.sublist_cons_self _ _) _)
  have hmem {e : String × Literal} :
      e ∈ before ++ (key, .absent) :: after ↔ e ∈ before ++ after ∨ e = (key, .absent) := by
    simp only [List.mem_append, List.mem_cons]
    tauto
  have hnone : Field.internalAccessGrant.literal? (before ++ after) = none := by
    by_contra hsome
    obtain ⟨l, hl⟩ := Option.ne_none_iff_exists'.mp hsome
    obtain ⟨key', hkey', hspelled⟩ := hsub.literal?_eq_some_iff.mp hl
    -- Two keys of the longer table would spell the grant.
    have hdistinct := h.distinct
    rw [List.map_append, List.map_cons, List.nodup_middle, List.nodup_cons, ← List.map_append,
      hkey] at hdistinct
    exact hdistinct.1 (List.mem_map.mpr ⟨_, hkey', hspelled⟩)
  refine ⟨hsub, hnone, ?_⟩
  apply surfaced_congr h.extraIssues_eq_nil hsub.extraIssues_eq_nil
  intro f
  by_cases hf : f = .internalAccessGrant
  · subst hf
    have habsent : Field.internalAccessGrant.literal? (before ++ (key, .absent) :: after) =
        some .absent :=
      h.literal?_eq_some_iff.mpr ⟨key, hmem.mpr (Or.inr rfl), hkey⟩
    rw [habsent, hnone]
    exact ⟨Declaration.saySame_absent.fault.symm, fun d => (Declaration.saySame_absent.facts d).symm⟩
  · rw [h.literal?_congr hsub]
    · exact .refl f _
    · intro l
      unfold Gives
      constructor
      · rintro ⟨key', hkey', hspelled⟩
        rcases hmem.mp hkey' with hkey' | heq
        · exact ⟨key', hkey', hspelled⟩
        · obtain ⟨rfl, -⟩ := Prod.mk.inj heq
          exact absurd (Option.some.inj (hspelled.symm.trans hkey)) hf
      · rintro ⟨key', hkey', hspelled⟩
        exact ⟨key', hmem.mpr (Or.inl hkey'), hspelled⟩

/-- A fault of a table that spells fields and can be shown is a malformed identity with the name of a
field. -/
theorem exists_malformed_of_surfaced {fault : Fault} (h : Spelled entries)
    (hwritable : Literal.entriesWritable entries = true)
    (hread : (ofEntries entries).surfaced = .error fault) :
    ∃ x f, fault = .malformed x ∧ x.field = Field.name f := by
  obtain ⟨x, rfl⟩ := malformed_of_surfaced hwritable hread
  rw [surfaced_eq_error_iff h.extraIssues_eq_nil] at hread
  obtain ⟨f, -, hfault⟩ := List.exists_of_findSome?_eq_some hread
  obtain ⟨reason, hreason⟩ := Field.exists_reason_of_fault? hfault
  exact ⟨x, f, rfl, Fault.field_of_eq hreason.symm⟩

/-- Keywords are declared where they are read as a table, and as the same descriptor. -/
theorem sound_iff_declare_eq_ok {d : Descriptor} (h : Spelled entries) :
    ofEntries entries = .sound d ↔ (declare entries).result = .ok d := by
  constructor
  · intro hsound
    have hname := grant_of_ofEntries hsound
    rw [← Declaration.grantOf_eq] at hname
    rw [Declaration.result_declare_of_grant h hname, Checked.surfaced_eq_ok_iff.mpr hsound]
    rfl
  · intro hdeclared
    rw [Declaration.result_declare h] at hdeclared
    cases hname : Declaration.held false (Declaration.grantOf entries) with
    | error fault =>
      rw [hname] at hdeclared
      cases hdeclared
    | ok name =>
      rw [hname, Except.bind, Declaration.surfaced_withHeld h hname] at hdeclared
      cases hread : (ofEntries entries).surfaced with
      | error fault =>
        rw [hread] at hdeclared
        cases hdeclared
      | ok found =>
        rw [hread] at hdeclared
        obtain rfl : found = d := Except.ok.inj hdeclared
        exact Checked.surfaced_eq_ok_iff.mp hread

/-- To declare an absent grant is to declare none. -/
theorem declare_without_absent {before after : Entries} {key : String}
    (h : Spelled (before ++ (key, .absent) :: after))
    (hkey : Field.ofSpelling? key = some .internalAccessGrant) :
    (declare (before ++ (key, .absent) :: after)).result = (declare (before ++ after)).result := by
  obtain ⟨hsub, hnone, hsame⟩ := surfaced_without_absent h hkey
  have hgiven : Field.internalAccessGrant.literal? (before ++ (key, .absent) :: after) = some .absent :=
    h.literal?_eq_some_iff.mpr ⟨key, by simp, hkey⟩
  have hlong : Coercion.grant (Declaration.grantOf (before ++ (key, .absent) :: after)) = .ok none := by
    rw [Declaration.grantOf_eq, hgiven]
    rfl
  have hshort : Coercion.grant (Declaration.grantOf (before ++ after)) = .ok none := by
    rw [Declaration.grantOf_eq, hnone]
    rfl
  rw [Declaration.result_declare_of_grant h hlong, hsame, Declaration.result_declare_of_grant hsub hshort]

/-- **Keywords that spell fields, no two of them the same, are declared exactly where they are read as a
table, and as the same descriptor. Where the grant by itself is accepted the faults are the same as well,
and where the literals can be shown such a fault is a malformed identity that names a field. A grant that is
given as absent is no grant, for both.** -/
theorem declare_agrees_with_reading (h : Spelled entries) :
    (∀ d, ofLiteral (.table entries) = .sound d ↔ (declare entries).result = .ok d) ∧
      (∀ name,
        Coercion.grant ((Field.internalAccessGrant.literal? entries).getD .absent) = .ok name →
          (∀ fault, (ofLiteral (.table entries)).surfaced = .error fault ↔
            (declare entries).result = .error (.fault fault)) ∧
          (Literal.entriesWritable entries = true →
            ∀ e, (declare entries).result = .error e →
              ∃ x f, e = .fault (.malformed x) ∧ x.field = Field.name f)) ∧
      ∀ before after key, entries = before ++ (key, .absent) :: after →
        Field.ofSpelling? key = some .internalAccessGrant →
          (ofLiteral (.table entries)).surfaced = (ofLiteral (.table (before ++ after))).surfaced ∧
            (declare entries).result = (declare (before ++ after)).result := by
  refine ⟨fun d => sound_iff_declare_eq_ok h, ?_, ?_⟩
  · intro name hname
    rw [← Declaration.grantOf_eq] at hname
    have hresult := Declaration.result_declare_of_grant h hname
    constructor
    · intro fault
      rw [hresult, ofLiteral]
      cases (ofEntries entries).surfaced <;> simp [Except.mapError]
    · intro hwritable e he
      rw [hresult] at he
      cases hread : (ofEntries entries).surfaced with
      | ok d =>
        rw [hread] at he
        cases he
      | error fault =>
        rw [hread] at he
        obtain rfl : .fault fault = e := Except.error.inj he
        obtain ⟨x, f, rfl, hf⟩ := exists_malformed_of_surfaced h hwritable hread
        exact ⟨x, f, rfl, hf⟩
  · rintro before after key rfl hkey
    exact ⟨(surfaced_without_absent h hkey).2.2, declare_without_absent h hkey⟩

/-- Keywords in both spellings, with a grant. -/
def mixedKeywords : Entries :=
  [("internalAccessGrant", .text "W.Tests"), ("fileVersion", .text "01.2.3.4"), ("title", .text "W"),
    ("organization", .text "A"), ("uniqueId", .text "97DB45A8-F922-456A-A819-7B3C6E5E03BA"),
    ("product_name", .text "W"), ("assembly_version", .list [.integer 1, .integer 2, .integer 3, .integer 4])]

/-- The same with an absent grant and a version of three parts. -/
def flawedKeywords : Entries :=
  [("title", .text "W"), ("internal_access_grant", .absent), ("organization", .text "A"),
    ("uniqueId", .text "97DB45A8-F922-456A-A819-7B3C6E5E03BA"), ("productName", .text "W"),
    ("assemblyVersion", .text "1.2.3"), ("file_version", .text "1.2.3.4")]

/-- The first keywords are declared as they are read; the second fail for one and the same version, with the
absent grant or without it. -/
theorem mixedKeywords_declared_as_read :
    Spelled mixedKeywords ∧ Spelled flawedKeywords ∧
      (declare mixedKeywords).result = .ok Builder.sampleDescriptor ∧
      (∃ x, (declare flawedKeywords).result = .error (.fault (.malformed x)) ∧
        x.field = "assembly_version" ∧ x.reason = "expected 4 components, got 3") ∧
      (declare flawedKeywords).result = (declare (flawedKeywords.eraseIdx 1)).result := by
  have hmixed : Spelled mixedKeywords := ⟨by decide +kernel, by decide +kernel⟩
  have hflawed : Spelled flawedKeywords := ⟨by decide +kernel, by decide +kernel⟩
  obtain ⟨hsound, -, -⟩ := declare_agrees_with_reading hmixed
  obtain ⟨-, hfaults, habsent⟩ := declare_agrees_with_reading hflawed
  have hread : ofLiteral (.table mixedKeywords) = .sound Builder.sampleDescriptor := by decide +kernel
  have hfault : ∃ x, (ofLiteral (.table flawedKeywords)).surfaced = .error (.malformed x) ∧
      x.field = "assembly_version" ∧ x.reason = "expected 4 components, got 3" := by
    have hseen : ((errorOf? (ofLiteral (.table flawedKeywords)).surfaced).bind Fault.malformed?).map
        (fun x => (x.field, x.reason)) = some ("assembly_version", "expected 4 components, got 3") := by
      decide +kernel
    obtain ⟨x, hx, htold⟩ := Option.map_eq_some_iff.mp hseen
    obtain ⟨fault, hfault, hmalformed⟩ := Option.bind_eq_some_iff.mp hx
    obtain rfl := Fault.malformed?_eq_some_iff.mp hmalformed
    exact ⟨x, errorOf?_eq_some_iff.mp hfault, Prod.mk.inj htold⟩
  obtain ⟨x, hx, hfield⟩ := hfault
  refine ⟨hmixed, hflawed, (hsound _).mp hread, ⟨x, ((hfaults none rfl).1 _).mp hx, hfield⟩, ?_⟩
  exact (habsent [("title", .text "W")] _ "internal_access_grant" rfl (by decide +kernel)).2

end Descriptor

end ArtifactIdentity
