import ArtifactIdentity.Proofs.Descriptor.Declaring

/-!
# Fields given twice

A builder refuses keywords before it looks at their literals: it comes to a keyword that spells no field, or to
one that spells a field again. So two keywords for one field are always refused. A declaration in one step takes
the grant out of the keywords first, and there two spellings of the grant are not two keywords for one field: the
block name wins, and what the other one says is lost.
-/

namespace ArtifactIdentity

open Descriptor

/-- Two different keys of the keywords spell one and the same field. -/
structure Repeats (keywords : Entries) (f : Field) (key key' : String) : Prop where
  differ : key ≠ key'
  given : ∃ l, (key, l) ∈ keywords
  again : ∃ l, (key', l) ∈ keywords
  spells : Field.ofSpelling? key = some f
  spells' : Field.ofSpelling? key' = some f

/-- Such keywords do not spell fields with no two of them the same. -/
theorem Repeats.not_spelled {keywords : Entries} {f : Field} {key key' : String}
    (h : Repeats keywords f key key') : ¬ Spelled keywords := by
  intro hspelled
  rcases h.given with ⟨l, hl⟩
  rcases h.again with ⟨l', hl'⟩
  have hsame := hspelled.eq_of_spelling hl hl' h.spells h.spells'
  exact h.differ (Prod.mk.inj hsame).1

/-- The ways in which keywords are refused whatever their literals are. -/
inductive Misnamed (keywords : Entries) : BuildError → Prop
  | builder (l : Literal) (hmem : (builderKeyword, l) ∈ keywords) : Misnamed keywords .givesBuilder
  | unknown (keyword : String) (l : Literal) (hmem : (keyword, l) ∈ keywords)
      (hnone : Field.ofSpelling? keyword = none) : Misnamed keywords (.unknownField keyword)
  | repeated (f : Field) (before after : Entries) (keyword : String) (l : Literal)
      (hsplit : keywords = before ++ (keyword, l) :: after)
      (hspells : Field.ofSpelling? keyword = some f)
      (hbefore : ∃ e ∈ before, Field.ofSpelling? e.1 = some f) : Misnamed keywords (.repeatedField f keyword)

namespace Builder

variable {b : Builder} {keywords prior rest : Entries} {seen : List Field}

/-- Behind keywords that are fields further ones are fields as well, or the first that is none is refused. What
was seen are the fields that the keywords before it spell. -/
theorem spelled_or_misnamed (hseen : ∀ f, f ∈ seen ↔ ∃ e ∈ prior, Field.ofSpelling? e.1 = some f)
    (hprior : Spelled prior) :
    Spelled (prior ++ rest) ∨ ∃ e, namedFields seen rest = .error e ∧ Misnamed (prior ++ rest) e := by
  induction rest generalizing prior seen with
  | nil =>
    rw [List.append_nil]
    exact Or.inl hprior
  | cons e rest ih =>
    obtain ⟨keyword, l⟩ := e
    have hmem : (keyword, l) ∈ prior ++ (keyword, l) :: rest := by simp
    cases hf : Field.ofSpelling? keyword with
    | none =>
      refine Or.inr ⟨.unknownField keyword, ?_, .unknown keyword l hmem hf⟩
      simp only [namedFields, hf]
    | some f =>
      by_cases hagain : f ∈ seen
      · refine Or.inr ⟨.repeatedField f keyword, ?_, .repeated f prior rest keyword l rfl hf ?_⟩
        · simp only [namedFields, hf, List.contains_eq_mem, decide_eq_true hagain, if_true]
        · exact (hseen f).mp hagain
      · have hnew : ∀ e ∈ prior, Field.ofSpelling? e.1 ≠ some f :=
          fun e he hspells => hagain ((hseen f).mpr ⟨e, he, hspells⟩)
        have hseen' : ∀ g, g ∈ f :: seen ↔ ∃ e ∈ prior ++ [(keyword, l)], Field.ofSpelling? e.1 = some g := by
          intro g
          simp only [List.mem_cons, hseen, List.mem_append, List.not_mem_nil, or_false, or_and_right,
            exists_or, exists_eq_left, hf, Option.some.injEq]
          rw [or_comm, eq_comm]
        have happend : prior ++ [(keyword, l)] ++ rest = prior ++ (keyword, l) :: rest := by simp
        rw [← happend]
        rcases ih hseen' (hprior.concat hf hnew) with hspelled | ⟨e, he, hmisnamed⟩
        · exact Or.inl hspelled
        · refine Or.inr ⟨e, ?_, hmisnamed⟩
          simp only [namedFields, hf, List.contains_eq_mem, decide_eq_false hagain, Bool.false_eq_true,
            if_false, he]
          rfl

/-- Keywords that do not spell fields, no two of them the same, are refused by every open builder alike. -/
theorem exists_misnamed (h : ¬ Spelled keywords) :
    ∃ e, Misnamed keywords e ∧ ∀ b : Builder, b.phase = .undeclared → b.declaration keywords = .error e := by
  by_cases hself : keywords.any (·.1 = builderKeyword) = true
  · obtain ⟨⟨_, l⟩, hmem, hkey⟩ := List.any_eq_true.mp hself
    obtain rfl := of_decide_eq_true hkey
    refine ⟨.givesBuilder, .builder l hmem, ?_⟩
    intro b _
    simp only [declaration, hself, if_true]
  · have hnone : ∀ f, f ∈ ([] : List Field) ↔ ∃ e ∈ ([] : Entries), Field.ofSpelling? e.1 = some f := by simp
    have hcases : Spelled keywords ∨ ∃ e, namedFields [] keywords = .error e ∧ Misnamed keywords e :=
      spelled_or_misnamed hnone ⟨by simp, by simp⟩
    rcases hcases with hspelled | ⟨e, he, hmisnamed⟩
    · exact absurd hspelled h
    · refine ⟨e, hmisnamed, ?_⟩
      intro b hopen
      simp only [declaration, hself, hopen, he, reduceCtorEq, Bool.false_eq_true, if_false]

/-- A builder that is sealed already refuses every declaration. -/
theorem exists_failed (b : Builder) (h : ¬ Spelled keywords) : ∃ e, b.declare keywords = b.failed e := by
  have hrefused : ∃ e, b.declaration keywords = .error e := by
    cases hsealed : b.phase with
    | undeclared =>
      obtain ⟨e, -, he⟩ := exists_misnamed h
      exact ⟨e, he b hsealed⟩
    | declared =>
      unfold declaration
      split
      · exact ⟨_, rfl⟩
      · exact ⟨.declared, rfl⟩
  obtain ⟨e, he⟩ := hrefused
  exact ⟨e, by rw [declare, he]⟩

end Builder

namespace Declaration

variable {keywords fields : Entries} {excludeTests : Bool} {grant : Literal} {f : Field} {key key' : String}

/-- Where the fields are refused the whole declaration is, if not the grant is refused before them. -/
theorem result_onBuilder_of_refused {e : BuildError}
    (h : ∀ b : Builder, b.phase = .undeclared → b.declaration fields = .error e) :
    (onBuilder excludeTests grant fields).result =
      match held excludeTests grant with
      | .error fault => .error (.fault fault)
      | .ok _ => .error e := by
  rw [result_onBuilder_eq]
  cases held excludeTests grant with
  | error fault => rfl
  | ok name =>
    simp only [Builder.declare, h ⟨excludeTests, name, none, .undeclared⟩ rfl]
    rfl

/-- A key that spells another field than the grant is handed on to the builder. -/
theorem mem_fieldsOf_of_spelling {l : Literal} (hmem : (key, l) ∈ keywords)
    (hspells : Field.ofSpelling? key = some f) (hf : f ≠ .internalAccessGrant) :
    (key, l) ∈ fieldsOf keywords := by
  refine List.mem_filter.mpr ⟨hmem, ?_⟩
  rw [Bool.not_eq_true', List.contains_eq_mem, decide_eq_false_iff_not]
  intro hown
  have hgrant (hkey : Field.ofSpelling? key = some .internalAccessGrant) : False :=
    hf (Option.some.inj (hspells.symm.trans hkey))
  simp only [ownKeywords, List.mem_cons, List.not_mem_nil, or_false] at hown
  rcases hown with rfl | hkey | hkey
  · have hnone : Field.ofSpelling? excludeTestsKeyword = none := by decide +kernel
    cases hnone.symm.trans hspells
  · exact hgrant (Field.ofSpelling?_eq_some_iff.mpr (Or.inl hkey))
  · exact hgrant (Field.ofSpelling?_eq_some_iff.mpr (Or.inr hkey))

theorem repeats_fieldsOf (h : Repeats keywords f key key') (hf : f ≠ .internalAccessGrant) :
    Repeats (fieldsOf keywords) f key key' := by
  rcases h.given with ⟨l, hl⟩
  rcases h.again with ⟨l', hl'⟩
  exact ⟨h.differ, ⟨l, mem_fieldsOf_of_spelling hl h.spells hf⟩,
    ⟨l', mem_fieldsOf_of_spelling hl' h.spells' hf⟩, h.spells, h.spells'⟩

/-! ## The two spellings of the grant -/

/-- The keywords without the grant under its name. -/
def withoutGrantName (keywords : Entries) : Entries :=
  keywords.filter fun e => e.1 ≠ Field.internalAccessGrant.name

theorem lookup_withoutGrantName (h : key ≠ Field.internalAccessGrant.name) :
    (withoutGrantName keywords).lookup key = keywords.lookup key := by
  induction keywords with
  | nil => rfl
  | cons e rest ih =>
    obtain ⟨keyword, l⟩ := e
    by_cases hname : keyword = Field.internalAccessGrant.name
    · have hdropped : withoutGrantName ((keyword, l) :: rest) = withoutGrantName rest :=
        List.filter_cons_of_neg (by simp [hname])
      have hother : key ≠ keyword := by rwa [hname]
      rw [hdropped, ih, Table.lookup_cons_of_ne hother]
    · have hkept : withoutGrantName ((keyword, l) :: rest) = (keyword, l) :: withoutGrantName rest :=
        List.filter_cons_of_pos (decide_eq_true hname)
      rw [hkept, List.lookup_cons, List.lookup_cons, ih]

/-- What is handed on to the builder holds the grant under neither spelling. -/
theorem fieldsOf_withoutGrantName (keywords : Entries) :
    fieldsOf (withoutGrantName keywords) = fieldsOf keywords := by
  unfold fieldsOf withoutGrantName
  rw [List.filter_filter]
  apply List.filter_congr
  rintro ⟨keyword, l⟩ -
  by_cases hname : keyword = Field.internalAccessGrant.name
  · simp [hname, ownKeywords]
  · simp [hname]

/-- With the block name of the grant its name says nothing, whatever it is given for it. -/
theorem declare_withoutGrantName {l : Literal} (h : (Field.internalAccessGrant.blockName, l) ∈ keywords) :
    declare (withoutGrantName keywords) = declare keywords := by
  have htests : excludesTests (withoutGrantName keywords) = excludesTests keywords := by
    rw [excludesTests, lookup_withoutGrantName (by decide), excludesTests]
  have hgrant : grantOf (withoutGrantName keywords) = grantOf keywords := by
    rw [grantOf, grantOf, lookup_withoutGrantName (by decide)]
    cases hlookup : keywords.lookup Field.internalAccessGrant.blockName with
    | some l => rfl
    | none =>
      have hnone := List.lookup_eq_none_iff.mp hlookup _ h
      simp at hnone
  rw [declare, htests, hgrant, fieldsOf_withoutGrantName, declare]

end Declaration

open Declaration

variable {keywords : Entries} {f : Field} {key key' : String}

/-- One of two different spellings of a field is its block name. -/
theorem Repeats.exists_blockName (h : Repeats keywords f key key') : ∃ l, (f.blockName, l) ∈ keywords := by
  rcases Field.ofSpelling?_eq_some_iff.mp h.spells with hname | hblock
  · rcases Field.ofSpelling?_eq_some_iff.mp h.spells' with hname' | hblock'
    · exact absurd (hname.trans hname'.symm) h.differ
    · rw [← hblock']
      exact h.again
  · rw [← hblock]
    exact h.given

/-- **Two different keywords for one field are refused by every builder, which stays as it is. A declaration in
one step refuses them as well where the field is not the grant: a grant that is none is the fault, and else the
keywords are refused whatever their literals are. Two keywords for the grant are not refused: what its name is
given for makes no difference to the declaration.** -/
theorem declare_of_repeats (h : Repeats keywords f key key') :
    (∀ b : Builder, ∃ e, b.declare keywords = b.failed e) ∧
      (f ≠ .internalAccessGrant →
        ∃ e, Misnamed (fieldsOf keywords) e ∧
          (declare keywords).result =
            match held (excludesTests keywords) (grantOf keywords) with
            | .error fault => .error (.fault fault)
            | .ok _ => .error e) ∧
      (f = .internalAccessGrant → declare (withoutGrantName keywords) = declare keywords) := by
  refine ⟨fun b => b.exists_failed h.not_spelled, ?_, ?_⟩
  · intro hf
    obtain ⟨e, hmisnamed, he⟩ := Builder.exists_misnamed (repeats_fieldsOf h hf).not_spelled
    exact ⟨e, hmisnamed, result_onBuilder_of_refused he⟩
  · rintro rfl
    obtain ⟨l, hl⟩ := h.exists_blockName
    exact declare_withoutGrantName hl

/-- Keywords with a version under both of its spellings. -/
def twiceVersioned : Entries :=
  ("file_version", .text "1.2.3.4") :: mixedKeywords

/-- Keywords with two grants, to different artifacts. -/
def twiceGranted : Entries :=
  ("internal_access_grant", .text "V.Tests") :: mixedKeywords

theorem repeats_twiceVersioned : Repeats twiceVersioned .fileVersion "file_version" "fileVersion" :=
  ⟨by decide, ⟨_, List.mem_cons_self⟩, ⟨.text "01.2.3.4", by simp [twiceVersioned, mixedKeywords]⟩,
    by decide +kernel, by decide +kernel⟩

theorem repeats_twiceGranted :
    Repeats twiceGranted .internalAccessGrant "internal_access_grant" "internalAccessGrant" :=
  ⟨by decide, ⟨_, List.mem_cons_self⟩, ⟨.text "W.Tests", by simp [twiceGranted, mixedKeywords]⟩,
    by decide +kernel, by decide +kernel⟩

/-- A fresh builder refuses both; in one step the two versions are refused and the second grant is taken. -/
theorem twice_declared :
    (∃ e, (Builder.mk false none none .undeclared).declare twiceGranted = (Builder.mk false none none .undeclared).failed e) ∧
      (∃ e, (declare twiceVersioned).result = .error e) ∧
      declare (withoutGrantName twiceGranted) = declare twiceGranted := by
  obtain ⟨hbuilder, -, hgrant⟩ := declare_of_repeats repeats_twiceGranted
  obtain ⟨-, hversion, -⟩ := declare_of_repeats repeats_twiceVersioned
  refine ⟨hbuilder _, ?_, hgrant rfl⟩
  obtain ⟨e, -, he⟩ := hversion (by decide)
  have hheld : (held (excludesTests twiceVersioned) (grantOf twiceVersioned)).toOption =
      some (some "W.Tests") := by
    decide +kernel
  rw [eq_ok_of_toOption hheld] at he
  exact ⟨e, he⟩

/-- The two grants are declared, with the artifact of the second. -/
theorem declare_twiceGranted :
    Repeats twiceGranted .internalAccessGrant "internal_access_grant" "internalAccessGrant" ∧
      (declare twiceGranted).result = .ok Builder.sampleDescriptor ∧
      Builder.sampleDescriptor.internalAccessGrant = some "W.Tests" := by
  refine ⟨repeats_twiceGranted, eq_ok_of_toOption ?_, rfl⟩
  decide +kernel

end ArtifactIdentity
