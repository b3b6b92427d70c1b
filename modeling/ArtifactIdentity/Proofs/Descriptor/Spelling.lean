import ArtifactIdentity.Proofs.Descriptor.Flaws
import ArtifactIdentity.Proofs.Descriptor.Sealing
import ArtifactIdentity.Proofs.Descriptor.Surfacing
import Mathlib.Data.List.Nodup

/-!
# The spellings of fields

A key may spell a field by its name or by its block name. In a table whose keys spell fields, no two of them
the same, every field has one literal at most, whatever the spelling and the order. A builder renames its
keywords to the fields they spell, and such keywords are read as the table that they are.
-/

namespace ArtifactIdentity

namespace Descriptor

/-- The keys of a table spell fields, no two of them the same one. -/
structure Spelled (entries : Entries) : Prop where
  known : ∀ e ∈ entries, (Field.ofSpelling? e.1).isSome = true
  distinct : (entries.map fun e => Field.ofSpelling? e.1).Nodup

/-- A table gives a literal under some spelling of a field. -/
def Gives (entries : Entries) (f : Field) (l : Literal) : Prop :=
  ∃ key, (key, l) ∈ entries ∧ Field.ofSpelling? key = some f

namespace Spelled

variable {entries entries' : Entries} {f : Field} {l : Literal}

theorem sublist (h : Spelled entries) (hsub : entries'.Sublist entries) : Spelled entries' := by
  constructor
  · intro e he
    exact h.known e (hsub.subset he)
  · exact h.distinct.sublist (hsub.map _)

/-- A further key may spell a field that none has spelled. -/
theorem concat {key : String} (h : Spelled entries) (hkey : Field.ofSpelling? key = some f)
    (hnew : ∀ e ∈ entries, Field.ofSpelling? e.1 ≠ some f) : Spelled (entries ++ [(key, l)]) := by
  constructor
  · intro e he
    rcases List.mem_append.mp he with he | he
    · exact h.known e he
    · obtain rfl := List.mem_singleton.mp he
      rw [hkey]
      rfl
  · rw [List.map_append, List.nodup_append]
    refine ⟨h.distinct, List.nodup_singleton _, ?_⟩
    rintro spelled hspelled _ hlast rfl
    obtain ⟨e, he, rfl⟩ := List.mem_map.mp hspelled
    apply hnew e he
    rw [← hkey]
    simpa using hlast

/-- One field is spelled by one key. -/
theorem eq_of_spelling {e e' : String × Literal} (h : Spelled entries) (he : e ∈ entries)
    (he' : e' ∈ entries) (hf : Field.ofSpelling? e.1 = some f) (hf' : Field.ofSpelling? e'.1 = some f) :
    e = e' :=
  List.inj_on_of_nodup_map h.distinct he he' (hf.trans hf'.symm)

theorem given?_eq_some_iff {e : String × Literal} (h : Spelled entries) :
    f.given? entries = some e ↔ e ∈ entries ∧ Field.ofSpelling? e.1 = some f := by
  constructor
  · intro hgiven
    obtain ⟨spelling, l⟩ := e
    exact ⟨Field.mem_of_given? hgiven, Field.ofSpelling?_of_given? hgiven⟩
  · rintro ⟨he, hf⟩
    cases hgiven : f.given? entries with
    | some e' =>
      have hsame := h.eq_of_spelling (Field.mem_of_given? hgiven) he
        (Field.ofSpelling?_of_given? (l := e'.2) hgiven) hf
      rw [hsame]
    | none =>
      -- Neither spelling is found, but the key is one of them.
      exfalso
      unfold Field.given? at hgiven
      split at hgiven
      · cases hgiven
      · rename_i hblock
        have hname := Option.map_eq_none_iff.mp hgiven
        rcases Field.ofSpelling?_eq_some_iff.mp hf with hkey | hkey
        · have := List.lookup_eq_none_iff.mp hname e he
          simp [hkey] at this
        · have := List.lookup_eq_none_iff.mp hblock e he
          simp [hkey] at this

theorem literal?_eq_some_iff (h : Spelled entries) : f.literal? entries = some l ↔ Gives entries f l := by
  unfold Field.literal? Gives
  rw [Option.map_eq_some_iff]
  constructor
  · rintro ⟨⟨key, l⟩, hgiven, rfl⟩
    exact ⟨key, h.given?_eq_some_iff.mp hgiven⟩
  · rintro ⟨key, hkey⟩
    exact ⟨(key, l), h.given?_eq_some_iff.mpr hkey, rfl⟩

/-- Tables that give a field the same literals say the same of it. -/
theorem literal?_congr (h : Spelled entries) (h' : Spelled entries')
    (hsame : ∀ l, Gives entries f l ↔ Gives entries' f l) : f.literal? entries = f.literal? entries' := by
  apply Option.ext
  intro l
  rw [h.literal?_eq_some_iff, h'.literal?_eq_some_iff]
  exact hsame l

/-- No key of such a table is strange. -/
theorem extraIssues_eq_nil (h : Spelled entries) : extraIssues entries = [] := by
  rw [extraIssues_eq_nil_iff]
  intro e he
  obtain ⟨f, hf⟩ := Option.isSome_iff_exists.mp (h.known e he)
  have hgiven : f.given? entries = some e := h.given?_eq_some_iff.mpr ⟨he, hf⟩
  rw [usesKey, List.any_eq_true]
  refine ⟨f, Field.mem_all f, ?_⟩
  rw [hgiven]
  exact decide_eq_true rfl

end Spelled

theorem gives_concat {entries : Entries} {f : Field} {l l' : Literal} {key : String} :
    Gives (entries ++ [(key, l')]) f l ↔
      Gives entries f l ∨ l = l' ∧ Field.ofSpelling? key = some f := by
  unfold Gives
  constructor
  · rintro ⟨k, hk, hf⟩
    rcases List.mem_append.mp hk with hk | hk
    · exact Or.inl ⟨k, hk, hf⟩
    · obtain ⟨rfl, rfl⟩ := Prod.mk.inj (List.mem_singleton.mp hk)
      exact Or.inr ⟨rfl, hf⟩
  · rintro (⟨k, hk, hf⟩ | ⟨rfl, hf⟩)
    · exact ⟨k, List.mem_append_left _ hk, hf⟩
    · exact ⟨key, List.mem_append_right _ (List.mem_singleton.mpr rfl), hf⟩

end Descriptor

/-- The name of a field spells it. -/
theorem Field.ofSpelling?_name (f : Field) : ofSpelling? f.name = some f :=
  ofSpelling?_eq_some_iff.mpr (Or.inl rfl)

/-! ## Keywords by the names of fields -/

namespace Builder

open Descriptor

variable {b : Builder} {keywords : Entries}

/-- The field that a keyword spells, with its literal. -/
def named? (e : String × Literal) : Option (Field × Literal) :=
  (Field.ofSpelling? e.1).map fun f => (f, e.2)

theorem named?_eq_some_iff {e : String × Literal} {p : Field × Literal} :
    named? e = some p ↔ Field.ofSpelling? e.1 = some p.1 ∧ e.2 = p.2 := by
  obtain ⟨f, l⟩ := p
  simp [named?]

theorem namedFields_of_spelled {seen : List Field} (h : Spelled keywords)
    (hseen : ∀ e ∈ keywords, ∀ f ∈ seen, Field.ofSpelling? e.1 ≠ some f) :
    namedFields seen keywords = .ok (keywords.filterMap named?) := by
  induction keywords generalizing seen with
  | nil => rfl
  | cons e rest ih =>
    obtain ⟨keyword, l⟩ := e
    obtain ⟨f, hf⟩ := Option.isSome_iff_exists.mp (h.known _ List.mem_cons_self)
    have hf : Field.ofSpelling? keyword = some f := hf
    have hnew : seen.contains f = false := by
      by_contra hcontains
      have hmem : f ∈ seen := by simpa using hcontains
      exact hseen _ List.mem_cons_self f hmem hf
    have hrest : Spelled rest := h.sublist (List.sublist_cons_self _ _)
    have hlater : ∀ e ∈ rest, ∀ f' ∈ f :: seen, Field.ofSpelling? e.1 ≠ some f' := by
      intro e he f' hf'
      rcases List.mem_cons.mp hf' with rfl | hf'
      · intro hsame
        have hdistinct := h.distinct
        rw [List.map_cons, List.nodup_cons] at hdistinct
        exact hdistinct.1 (List.mem_map.mpr ⟨e, he, hsame.trans hf.symm⟩)
      · exact hseen e (List.mem_cons_of_mem _ he) f' hf'
    have hnamed : named? (keyword, l) = some (f, l) := named?_eq_some_iff.mpr ⟨hf, rfl⟩
    rw [namedFields, hf, List.filterMap_cons, hnamed]
    simp only [hnew, Bool.false_eq_true, if_false, ih hrest hlater]
    rfl

/-- The literal for the grant that a builder holds. -/
def heldLiteral (b : Builder) : Literal :=
  (b.grant.map Literal.text).getD .absent

/-- The names of the keywords spell the same fields as the keywords. -/
theorem spelled_names (h : Spelled keywords) :
    Spelled ((keywords.filterMap named?).map fun p => (p.1.name, p.2)) := by
  constructor
  · intro e he
    obtain ⟨p, -, rfl⟩ := List.mem_map.mp he
    rw [Field.ofSpelling?_name]
    rfl
  · have hsame : (((keywords.filterMap named?).map fun p => (p.1.name, p.2)).map
        fun e => Field.ofSpelling? e.1) = keywords.map fun e => Field.ofSpelling? e.1 := by
      have hknown := h.known
      clear h
      induction keywords with
      | nil => rfl
      | cons e rest ih =>
        obtain ⟨f, hf⟩ := Option.isSome_iff_exists.mp (hknown e List.mem_cons_self)
        have hnamed : named? e = some (f, e.2) := named?_eq_some_iff.mpr ⟨hf, rfl⟩
        rw [List.filterMap_cons, hnamed, List.map_cons, List.map_cons, List.map_cons, hf,
          Field.ofSpelling?_name, ih fun e' he' => hknown e' (List.mem_cons_of_mem _ he')]
    rw [hsame]
    exact h.distinct

theorem gives_names {f : Field} {l : Literal} :
    Gives ((keywords.filterMap named?).map fun p => (p.1.name, p.2)) f l ↔ Gives keywords f l := by
  constructor
  · rintro ⟨key, hkey, hf⟩
    obtain ⟨⟨f', l'⟩, hp, heq⟩ := List.mem_map.mp hkey
    obtain ⟨rfl, rfl⟩ := Prod.mk.inj heq
    obtain ⟨⟨keyword, _⟩, he, hnamed⟩ := List.mem_filterMap.mp hp
    obtain ⟨hspelled, rfl⟩ := named?_eq_some_iff.mp hnamed
    rw [Field.ofSpelling?_name] at hf
    exact ⟨keyword, he, hspelled.trans hf⟩
  · rintro ⟨keyword, he, hf⟩
    refine ⟨f.name, List.mem_map.mpr ⟨(f, l), ?_, rfl⟩, Field.ofSpelling?_name f⟩
    exact List.mem_filterMap.mpr ⟨_, he, named?_eq_some_iff.mpr ⟨hf, rfl⟩⟩

/-- No field is spelled like the builder itself. -/
theorem any_builderKeyword_of_spelled (h : Spelled keywords) :
    keywords.any (·.1 = builderKeyword) = false := by
  rw [List.any_eq_false]
  intro e he heq
  have hknown := h.known e he
  rw [of_decide_eq_true heq] at hknown
  exact absurd hknown (by decide +kernel)

theorem namedFields_nil_of_spelled (h : Spelled keywords) :
    namedFields [] keywords = .ok (keywords.filterMap named?) :=
  namedFields_of_spelled h fun _ _ _ hf => absurd hf List.not_mem_nil

/-- An open builder refuses keywords with the grant among them, whatever else they are. -/
theorem declaration_of_grant {l : Literal} (hopen : b.phase = .undeclared) (h : Spelled keywords)
    (hgrant : Gives keywords .internalAccessGrant l) : b.declaration keywords = .error .grantAsField := by
  obtain ⟨key, hkey, hf⟩ := hgrant
  have htaken : (keywords.filterMap named?).any (·.1 = .internalAccessGrant) = true := by
    rw [List.any_eq_true]
    refine ⟨(.internalAccessGrant, l), ?_, decide_eq_true rfl⟩
    exact List.mem_filterMap.mpr ⟨_, hkey, named?_eq_some_iff.mpr ⟨hf, rfl⟩⟩
  simp only [declaration, any_builderKeyword_of_spelled h, hopen, namedFields_nil_of_spelled h, htaken,
    reduceCtorEq, Bool.false_eq_true, if_false, if_true]

/-- **An open builder reads keywords as the table that they are, with its grant added.** -/
theorem declaration_of_spelled (hopen : b.phase = .undeclared) (h : Spelled keywords)
    (hgrant : ∀ e ∈ keywords, Field.ofSpelling? e.1 ≠ some .internalAccessGrant) :
    b.declaration keywords =
      (ofEntries (keywords ++ [(Field.internalAccessGrant.name, b.heldLiteral)])).surfaced.mapError
        .fault := by
  have hself := any_builderKeyword_of_spelled h
  have hnamed := namedFields_nil_of_spelled h
  have hfree : (keywords.filterMap named?).any (·.1 = .internalAccessGrant) = false := by
    rw [List.any_eq_false]
    intro p hp heq
    obtain ⟨e, he, hnamed⟩ := List.mem_filterMap.mp hp
    apply hgrant e he
    rw [(named?_eq_some_iff.mp hnamed).1, of_decide_eq_true heq]
  have hnew : ∀ e ∈ (keywords.filterMap named?).map fun p => (p.1.name, p.2),
      Field.ofSpelling? e.1 ≠ some .internalAccessGrant := by
    rintro ⟨key, l⟩ he hf
    obtain ⟨keyword, hkeyword, hspelled⟩ := gives_names.mp ⟨key, he, hf⟩
    exact hgrant _ hkeyword hspelled
  have htable : Spelled (b.tableFor (keywords.filterMap named?)) :=
    (spelled_names h).concat (Field.ofSpelling?_name _) hnew
  have hadded : Spelled (keywords ++ [(Field.internalAccessGrant.name, b.heldLiteral)]) :=
    h.concat (Field.ofSpelling?_name _) hgrant
  have hread : (ofEntries (b.tableFor (keywords.filterMap named?))).surfaced =
      (ofEntries (keywords ++ [(Field.internalAccessGrant.name, b.heldLiteral)])).surfaced := by
    apply surfaced_congr htable.extraIssues_eq_nil hadded.extraIssues_eq_nil
    intro f
    rw [htable.literal?_congr hadded]
    · exact .refl f _
    · intro l
      rw [tableFor, gives_concat, gives_concat, gives_names]
      exact Iff.rfl
  simp only [declaration, hself, hopen, hnamed, hfree, hread, reduceCtorEq, Bool.false_eq_true,
    if_false]
  cases (ofEntries (keywords ++ [(Field.internalAccessGrant.name, b.heldLiteral)])).surfaced <;> rfl

end Builder

end ArtifactIdentity
