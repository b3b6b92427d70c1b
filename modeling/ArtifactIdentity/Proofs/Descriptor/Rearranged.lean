import ArtifactIdentity.Proofs.Block.Readers
import ArtifactIdentity.Proofs.Descriptor.Admission

/-!
# Keywords in another order and spelling

Two tables are rearrangements of each other where they give each field the same literals, whatever the order of
their keys and whichever spelling each key has. A field is looked up under both of its spellings, and the fields
are checked in their own order, so nothing that is read from a table tells it from its rearrangements: neither the
descriptor nor, where several fields are flawed, the one that the fault is about.
-/

namespace ArtifactIdentity

namespace Descriptor

/-- Two tables spell fields, none of them twice, and give each field the same literals. -/
structure Rearranged (entries entries' : Entries) : Prop where
  spelled : Spelled entries
  spelled' : Spelled entries'
  same : ∀ f l, Gives entries f l ↔ Gives entries' f l

namespace Rearranged

variable {entries entries' : Entries} {f : Field} {l : Literal}

/-- A table is rearranged by permuting its entries and writing its keys in other spellings. -/
theorem of_perm {spell : String → String} (h : Spelled entries)
    (hspell : ∀ key, Field.ofSpelling? (spell key) = Field.ofSpelling? key)
    (hperm : entries'.Perm (entries.map fun e => (spell e.1, e.2))) : Rearranged entries entries' := by
  have hmem {e : String × Literal} : e ∈ entries' ↔ ∃ e' ∈ entries, (spell e'.1, e'.2) = e := by
    rw [hperm.mem_iff, List.mem_map]
  refine ⟨h, ⟨?_, ?_⟩, ?_⟩
  · intro e he
    obtain ⟨e', he', rfl⟩ := hmem.mp he
    rw [hspell]
    exact h.known e' he'
  · have hspelled := hperm.map fun e => Field.ofSpelling? e.1
    rw [List.map_map] at hspelled
    have hsame : (entries.map ((fun e => Field.ofSpelling? e.1) ∘ fun e => (spell e.1, e.2))) =
        entries.map fun e => Field.ofSpelling? e.1 :=
      List.map_congr_left fun e _ => hspell e.1
    rw [hspelled.nodup_iff, hsame]
    exact h.distinct
  · intro f l
    constructor
    · rintro ⟨key, hkey, hf⟩
      exact ⟨spell key, hmem.mpr ⟨_, hkey, rfl⟩, (hspell key).trans hf⟩
    · rintro ⟨_, hkey, hf⟩
      obtain ⟨⟨key, l'⟩, he, heq⟩ := hmem.mp hkey
      obtain ⟨rfl, rfl⟩ := Prod.mk.inj heq
      exact ⟨key, he, (hspell key).symm.trans hf⟩

theorem literal?_eq (h : Rearranged entries entries') : f.literal? entries = f.literal? entries' :=
  h.spelled.literal?_congr h.spelled' (h.same f)

/-- **What is read from a table, or the fault that is surfaced, is the same after a rearrangement.** -/
theorem surfaced_eq (h : Rearranged entries entries') :
    (ofEntries entries).surfaced = (ofEntries entries').surfaced := by
  apply surfaced_congr h.spelled.extraIssues_eq_nil h.spelled'.extraIssues_eq_nil
  intro f
  rw [h.literal?_eq]
  exact .refl f _

/-- A field that one table leaves out is left out by the other. -/
theorem free (h : Rearranged entries entries') (hnew : ∀ e ∈ entries, Field.ofSpelling? e.1 ≠ some f) :
    ∀ e ∈ entries', Field.ofSpelling? e.1 ≠ some f := by
  rintro ⟨key, l⟩ he hf
  obtain ⟨key', he', hf'⟩ := (h.same f l).mpr ⟨key, he, hf⟩
  exact hnew _ he' hf'

theorem concat {key : String} (h : Rearranged entries entries') (hkey : Field.ofSpelling? key = some f)
    (hnew : ∀ e ∈ entries, Field.ofSpelling? e.1 ≠ some f) :
    Rearranged (entries ++ [(key, l)]) (entries' ++ [(key, l)]) := by
  refine ⟨h.spelled.concat hkey hnew, h.spelled'.concat hkey (h.free hnew), ?_⟩
  intro g l'
  rw [gives_concat, gives_concat, h.same]

end Rearranged

end Descriptor

/-! ## Declarations -/

open Descriptor

namespace Builder

variable {keywords keywords' : Entries}

/-- A builder declares or refuses keywords as it does their rearrangements, sealed or not. -/
theorem declaration_rearranged (b : Builder) (h : Rearranged keywords keywords') :
    b.declaration keywords = b.declaration keywords' := by
  cases hopen : b.phase with
  | declared =>
    simp only [declaration, any_builderKeyword_of_spelled h.spelled,
      any_builderKeyword_of_spelled h.spelled', hopen, Bool.false_eq_true, if_false,
      if_true]
  | undeclared =>
    by_cases hgrant : ∃ l, Gives keywords .internalAccessGrant l
    · obtain ⟨l, hl⟩ := hgrant
      rw [declaration_of_grant hopen h.spelled hl, declaration_of_grant hopen h.spelled' ((h.same _ l).mp hl)]
    · have hfree : ∀ e ∈ keywords, Field.ofSpelling? e.1 ≠ some .internalAccessGrant := by
        rintro ⟨key, l⟩ he hf
        exact hgrant ⟨l, key, he, hf⟩
      rw [declaration_of_spelled hopen h.spelled hfree, declaration_of_spelled hopen h.spelled' (h.free hfree),
        (h.concat (Field.ofSpelling?_name _) hfree).surfaced_eq]

/-- **So a call with rearranged keywords has the same result and leaves the same builder and records.** -/
theorem declare_rearranged (b : Builder) (h : Rearranged keywords keywords') :
    b.declare keywords = b.declare keywords' := by
  rw [declare, b.declaration_rearranged h, declare]

/-- Keywords without the grant that can be shown are declared or refused for a malformed identity. -/
theorem declared_or_malformed {b : Builder} (hopen : b.phase = .undeclared) (h : Spelled keywords)
    (hgrant : ∀ l, ¬ Gives keywords .internalAccessGrant l)
    (hwritable : Literal.entriesWritable keywords = true) :
    (∃ d, (b.declare keywords).result = .ok d) ∨
      ∃ x, (b.declare keywords).result = .error (.fault (.malformed x)) := by
  have hfree : ∀ e ∈ keywords, Field.ofSpelling? e.1 ≠ some .internalAccessGrant := by
    rintro ⟨key, l⟩ he hf
    exact hgrant l ⟨key, he, hf⟩
  have hadded : Literal.entriesWritable
      (keywords ++ [(Field.internalAccessGrant.name, b.heldLiteral)]) = true := by
    rw [Literal.entriesWritable_iff]
    intro e he
    rcases List.mem_append.mp he with he | he
    · exact Literal.entriesWritable_iff.mp hwritable e he
    · obtain rfl := List.mem_singleton.mp he
      unfold heldLiteral
      cases b.grant <;> rfl
  rw [result_declare, declaration_of_spelled hopen h hfree]
  cases hread : (ofEntries (keywords ++ [(Field.internalAccessGrant.name, b.heldLiteral)])).surfaced with
  | ok d => exact Or.inl ⟨d, rfl⟩
  | error fault =>
    obtain ⟨x, rfl⟩ := malformed_of_surfaced hadded hread
    exact Or.inr ⟨x, rfl⟩

end Builder

namespace Declaration

variable {keywords keywords' : Entries}

theorem rearranged_fieldsOf (h : Rearranged keywords keywords') :
    Rearranged (fieldsOf keywords) (fieldsOf keywords') := by
  refine ⟨spelled_fieldsOf h.spelled, spelled_fieldsOf h.spelled', ?_⟩
  intro f l
  have hgives {entries : Entries} (hentries : Spelled entries) :
      Gives (fieldsOf entries) f l ↔ Gives entries f l ∧ f ≠ .internalAccessGrant := by
    unfold Gives
    constructor
    · rintro ⟨key, hkey, hf⟩
      obtain ⟨hmem, hgrant⟩ := (mem_fieldsOf_iff hentries).mp hkey
      refine ⟨⟨key, hmem, hf⟩, ?_⟩
      rintro rfl
      exact hgrant hf
    · rintro ⟨⟨key, hkey, hf⟩, hgrant⟩
      refine ⟨key, (mem_fieldsOf_iff hentries).mpr ⟨hkey, ?_⟩, hf⟩
      rw [hf]
      exact fun hsame => hgrant (Option.some.inj hsame)
  rw [hgives h.spelled, hgives h.spelled', h.same]

/-- A declaration in one step is the same for rearranged keywords, its records included. -/
theorem declare_rearranged (h : Rearranged keywords keywords') :
    ArtifactIdentity.declare keywords = ArtifactIdentity.declare keywords' := by
  have hgrant : grantOf keywords = grantOf keywords' := by
    rw [grantOf_eq, grantOf_eq, h.literal?_eq]
  have hfields (b : Builder) : b.declare (fieldsOf keywords) = b.declare (fieldsOf keywords') :=
    b.declare_rearranged (rearranged_fieldsOf h)
  simp only [ArtifactIdentity.declare, excludesTests_of_spelled h.spelled,
    excludesTests_of_spelled h.spelled', hgrant, onBuilder, hfields]

end Declaration

/-- **Neither the order nor the spelling of the keys matters. An open builder replies the same to keywords and to
their rearrangements, and so does a declaration in one step. The grant is no keyword for a builder; without it
keywords that can be shown are declared as one descriptor or refused for one malformed identity. Two objects whose
facts are rearrangements of each other are loaded as one descriptor or refused for one malformed identity.** -/
theorem declared_and_loaded_alike :
    (∀ (b : Builder) (keywords keywords' : Entries), b.phase = .undeclared → Rearranged keywords keywords' →
      b.declare keywords = b.declare keywords' ∧ declare keywords = declare keywords' ∧
        (∀ l, Gives keywords .internalAccessGrant l →
          (b.declare keywords).result = .error .grantAsField ∧
            (b.declare keywords').result = .error .grantAsField) ∧
        ((∀ l, ¬ Gives keywords .internalAccessGrant l) → Literal.entriesWritable keywords = true →
          (∃ d, (b.declare keywords).result = .ok d ∧ (b.declare keywords').result = .ok d) ∨
            ∃ x, (b.declare keywords).result = .error (.fault (.malformed x)) ∧
              (b.declare keywords').result = .error (.fault (.malformed x)))) ∧
      ∀ (m m' : Machine) (directory directory' : Pathname) (members members' : List (String × Json)),
        m.HoldsObject directory members → m'.HoldsObject directory' members' →
          Rearranged (Block.factsOf members) (Block.factsOf members') →
            (∃ d, m.load directory = .ok d ∧ m'.load directory' = .ok d) ∨
              ∃ x, m.load directory = .error (.refused (.malformed x)) ∧
                m'.load directory' = .error (.refused (.malformed x)) := by
  constructor
  · intro b keywords keywords' hopen h
    have hreply := b.declare_rearranged h
    refine ⟨hreply, Declaration.declare_rearranged h, ?_, ?_⟩
    · intro l hl
      rw [← hreply, Builder.result_declare, Builder.declaration_of_grant hopen h.spelled hl]
      exact ⟨rfl, rfl⟩
    · intro hgrant hwritable
      rw [← hreply]
      simpa only [and_self] using Builder.declared_or_malformed hopen h.spelled hgrant hwritable
  · intro m m' directory directory' members members' hm hm' h
    have hload : m'.load directory' = m.load directory := by
      rw [Machine.load_of_object hm, Machine.load_of_object hm', h.surfaced_eq]
    rw [hload]
    simpa only [and_self] using Machine.loaded_or_malformed hm

/-! ## Keywords written backwards -/

/-- The other spelling of the field that a word spells. -/
def Field.respelled (word : String) : String :=
  match ofSpelling? word with
  | some f => if word = f.name then f.blockName else f.name
  | none => word

theorem Field.ofSpelling?_respelled (word : String) : ofSpelling? (respelled word) = ofSpelling? word := by
  cases hf : ofSpelling? word with
  | none => rw [respelled, hf]; exact hf
  | some f =>
    rw [respelled, hf, ofSpelling?_eq_some_iff]
    dsimp only
    split
    · exact Or.inr rfl
    · exact Or.inl rfl

/-- The last keyword first, and each in its other spelling. -/
def backwards (keywords : Entries) : Entries :=
  (keywords.map fun e => (Field.respelled e.1, e.2)).reverse

theorem rearranged_backwards {keywords : Entries} (h : Spelled keywords) :
    Rearranged keywords (backwards keywords) :=
  .of_perm h Field.ofSpelling?_respelled (List.reverse_perm _)

/-- Keywords whose title is an integer of one digit more than can be shown. -/
def overlongKeywords : Entries :=
  [("title", .integer Literal.integerLimit), ("fileVersion", .text "1.2.3.4")]

/-- A builder refuses keywords with the grant among them, and the message on a literal that is too long cannot be
put together: in neither case have the two runs a descriptor or a malformed identity. -/
theorem declare_backwards_otherwise :
    let b : Builder := ⟨false, none, none, .undeclared⟩
    ∀ keywords ∈ [mixedKeywords, overlongKeywords], Rearranged keywords (backwards keywords) ∧
      ¬ ((∃ d, (b.declare keywords).result = .ok d ∧ (b.declare (backwards keywords)).result = .ok d) ∨
        ∃ x, (b.declare keywords).result = .error (.fault (.malformed x)) ∧
          (b.declare (backwards keywords)).result = .error (.fault (.malformed x))) := by
  intro b keywords hkeywords
  have hspelled : Spelled keywords := by
    rcases List.mem_pair.mp hkeywords with rfl | rfl
    · exact ⟨by decide +kernel, by decide +kernel⟩
    · exact ⟨by decide +kernel, by decide +kernel⟩
  have hother : (b.declare keywords).result.toOption = none ∧
      (errorOf? (b.declare keywords).result).bind BuildError.malformedField? = none := by
    rcases List.mem_pair.mp hkeywords with rfl | rfl
    · exact ⟨by decide +kernel, by decide +kernel⟩
    · exact ⟨by decide +kernel, by decide +kernel⟩
  refine ⟨rearranged_backwards hspelled, ?_⟩
  rintro (⟨d, hd, -⟩ | ⟨x, hx, -⟩)
  · rw [hd] at hother
    cases hother.1
  · rw [hx] at hother
    cases hother.2

/-- A machine with nothing but a block of a given text. -/
def Machine.holding (text : String) : Machine :=
  ⟨⟨[([Block.fileName], .file text.toUTF8)]⟩, [], none, [], ⟨true, []⟩⟩

theorem Machine.holdsObject_holding {text : String} {texts : List (String × String)}
    (h : (Block.factsIn? text).bind (·.mapM Literal.keyedText?) = some texts) :
    ∃ members, (holding text).HoldsObject ⟨true, []⟩ members ∧
      Block.factsOf members = Entries.ofTexts texts := by
  obtain ⟨facts, hfacts, htexts⟩ := Option.bind_eq_some_iff.mp h
  rw [← Entries.eq_ofTexts htexts]
  exact holdsObject_of_factsIn? rfl hfacts

/-- The sample keywords are declared forwards and backwards; the lacking ones are refused both ways for the blank
text. A blank title is refused with a version of the schema in front of it or without one. -/
theorem backwards_declared_and_loaded_alike :
    let b : Builder := ⟨false, some "W.Tests", none, .undeclared⟩
    Rearranged Builder.sampleKeywords (backwards Builder.sampleKeywords) ∧
      (b.declare (backwards Builder.sampleKeywords)).result = .ok Builder.sampleDescriptor ∧
      Rearranged Builder.lackingKeywords (backwards Builder.lackingKeywords) ∧
      (∃ x, (b.declare Builder.lackingKeywords).result = .error (.fault (.malformed x)) ∧
        (b.declare (backwards Builder.lackingKeywords)).result = .error (.fault (.malformed x))) ∧
      ∃ x,
        (Machine.holding "\x7b\"schemaVersion\":7,\"title\":\" \"\x7d").load ⟨true, []⟩ =
            .error (.refused (.malformed x)) ∧
          (Machine.holding "\x7b\"title\":\" \"\x7d").load ⟨true, []⟩ = .error (.refused (.malformed x)) := by
  intro b
  have hsample : Spelled Builder.sampleKeywords := ⟨by decide +kernel, by decide +kernel⟩
  have hlacking : Spelled Builder.lackingKeywords := ⟨by decide +kernel, by decide +kernel⟩
  obtain ⟨hdeclared, hloaded⟩ := declared_and_loaded_alike
  obtain ⟨hreply, -, -, -⟩ := hdeclared b _ _ rfl (rearranged_backwards hsample)
  obtain ⟨-, -, -, hlack⟩ := hdeclared b _ _ rfl (rearranged_backwards hlacking)
  refine ⟨rearranged_backwards hsample, ?_, rearranged_backwards hlacking, ?_, ?_⟩
  · rw [← hreply]
    exact eq_ok_of_toOption (by decide +kernel)
  · have hfree : ∀ l, ¬ Gives Builder.lackingKeywords .internalAccessGrant l := by
      rintro l ⟨key, hkey, hf⟩
      have hnone : ∀ e ∈ Builder.lackingKeywords, Field.ofSpelling? e.1 ≠ some .internalAccessGrant := by
        decide +kernel
      exact hnone _ hkey hf
    rcases hlack hfree (by decide +kernel) with ⟨d, hd, -⟩ | hx
    · have hrefused : (b.declare Builder.lackingKeywords).result.toOption = none := by decide +kernel
      rw [hd] at hrefused
      cases hrefused
    · exact hx
  · obtain ⟨members, hfirst, hfacts⟩ : ∃ members,
        (Machine.holding "\x7b\"schemaVersion\":7,\"title\":\" \"\x7d").HoldsObject ⟨true, []⟩ members ∧
          Block.factsOf members = Entries.ofTexts [("title", " ")] :=
      Machine.holdsObject_holding (by decide +kernel)
    obtain ⟨members', hsecond, hfacts'⟩ : ∃ members,
        (Machine.holding "\x7b\"title\":\" \"\x7d").HoldsObject ⟨true, []⟩ members ∧
          Block.factsOf members = Entries.ofTexts [("title", " ")] :=
      Machine.holdsObject_holding (by decide +kernel)
    have htitle : Spelled (Entries.ofTexts [("title", " ")]) := ⟨by decide +kernel, by decide +kernel⟩
    have hsame : Rearranged (Block.factsOf members) (Block.factsOf members') := by
      rw [hfacts, hfacts']
      exact ⟨htitle, htitle, fun f l => Iff.rfl⟩
    rcases hloaded _ _ _ _ _ _ hfirst hsecond hsame with ⟨d, -, hd⟩ | hx
    · have hrefused : ((ofEntries (Entries.ofTexts [("title", " ")])).surfaced.mapError
          LoadError.refused).toOption = none := by decide +kernel
      rw [← hfacts', ← Machine.load_of_object hsecond, hd] at hrefused
      cases hrefused
    · exact hx

end ArtifactIdentity
