import ArtifactIdentity.Proofs.Descriptor.WellFormed
import Mathlib.Data.List.Induction

/-!
# Runs of a builder

A call does one of four things to a builder: it fails and leaves the builder as it was, it skips a grant, it
notes a grant, or it declares the descriptor. The checks look at the phase alone; that it is declared exactly
where there is a descriptor is kept by every call. Only an undeclared builder is changed by a call, so the
history of a run is short: the first declaration that returns is the only one, its descriptor is kept, and every
call after it fails.
-/

namespace ArtifactIdentity

/-- A name that is accepted was given as a text. -/
theorem Counterpart.eq_text_of_ofLiteral {field name : String} {literal : Literal}
    (h : ofLiteral field literal = .ok name) : literal = .text name := by
  unfold ofLiteral at h
  split at h
  · split at h
    · simp [refuse] at h
    · split at h
      · simp [refuse] at h
      · obtain rfl := Except.ok.inj h
        rfl
  · simp [refuse] at h

theorem Phase.eq_undeclared {p : Phase} (h : p ≠ .declared) : p = .undeclared := by
  cases p with
  | undeclared => rfl
  | declared => exact absurd rfl h

theorem Phase.eq_declared {p : Phase} (h : p ≠ .undeclared) : p = .declared := by
  cases p with
  | undeclared => exact absurd rfl h
  | declared => rfl

namespace Builder

variable {b : Builder} {c : Call} {keywords : Entries} {d : Descriptor}

/-! ## A declaration and its grant -/

/-- The table of a declaration gives the grant of the builder, and gives it under its name. -/
theorem given?_tableFor {fields : List (Field × Literal)}
    (h : ∀ p ∈ fields, p.1 ≠ .internalAccessGrant) :
    Field.internalAccessGrant.given? (b.tableFor fields) =
      some (Field.internalAccessGrant.name, (b.grant.map Literal.text).getD .absent) := by
  have hfields {word : String} (hword : ∀ p ∈ fields, word ≠ p.1.name) :
      (fields.map fun p => (p.1.name, p.2)).lookup word = none := by
    rw [List.lookup_eq_none_iff]
    intro e he
    obtain ⟨p, hp, rfl⟩ := List.mem_map.mp he
    simpa using hword p hp
  -- No field has the block name of the grant for its name, and only the grant has its name.
  have hblock : ∀ f : Field, Field.internalAccessGrant.blockName ≠ f.name := by
    intro f
    cases f <;> decide
  have hname : ∀ f : Field, f ≠ .internalAccessGrant → Field.internalAccessGrant.name ≠ f.name := by
    intro f hf heq
    have hspelled : Field.ofSpelling? Field.internalAccessGrant.name = some f :=
      Field.ofSpelling?_eq_some_iff.mpr (Or.inl heq)
    exact hf (Option.some.inj hspelled).symm
  have hnoBlock : (b.tableFor fields).lookup Field.internalAccessGrant.blockName = none := by
    rw [tableFor, List.lookup_append, hfields fun p _ => hblock p.1]
    rfl
  have hgrant : (b.tableFor fields).lookup Field.internalAccessGrant.name =
      some ((b.grant.map Literal.text).getD .absent) := by
    rw [tableFor, List.lookup_append, hfields fun p hp => hname p.1 (h p hp)]
    rfl
  rw [Field.given?, hnoBlock, hgrant]
  rfl

/-- A grant that is read from a table is the grant that was written there. -/
theorem eq_of_grant {held read : Option String}
    (h : Coercion.grant ((held.map Literal.text).getD .absent) = .ok read) : read = held := by
  cases held with
  | none => exact (Except.ok.inj h).symm
  | some name =>
    have hread : Coercion.ruled ((Counterpart.ofLiteral Field.internalAccessGrant.name
        (.text name)).map some) = .ok read := h
    rw [Descriptor.ruled_eq_ok_iff] at hread
    cases hname : Counterpart.ofLiteral Field.internalAccessGrant.name (.text name) with
    | error fault =>
      rw [hname] at hread
      cases hread
    | ok s =>
      rw [hname] at hread
      obtain rfl := Literal.text.inj (Counterpart.eq_text_of_ofLiteral hname)
      exact (Except.ok.inj hread).symm

/-- **A declaration that returns was made on an open builder, and its descriptor has the grant that the
builder held.** -/
theorem grant_of_declaration (h : b.declaration keywords = .ok d) :
    b.phase = .undeclared ∧ d.internalAccessGrant = b.grant := by
  unfold declaration at h
  split at h
  · cases h
  split at h
  · cases h
  rename_i hopen
  split at h
  · cases h
  split at h
  · cases h
  rename_i fields _ hfields
  split at h
  · cases h
  rename_i hread
  obtain rfl := Except.ok.inj h
  have hundeclared : b.phase = .undeclared := Phase.eq_undeclared hopen
  have hnot : ∀ p ∈ fields, p.1 ≠ .internalAccessGrant := by
    intro p hp heq
    exact hfields (List.any_eq_true.mpr ⟨p, hp, decide_eq_true heq⟩)
  obtain ⟨hstated, _⟩ :=
    Descriptor.ofEntries_eq_sound_iff.mp (Checked.surfaced_eq_ok_iff.mp hread)
  have hgrant := hstated .internalAccessGrant
  rw [Descriptor.StatedBy, given?_tableFor hnot] at hgrant
  exact ⟨hundeclared, eq_of_grant hgrant⟩

/-! ## What a call does -/

/-- What a call leaves of a builder: it fails and leaves everything, it skips a grant because tests are
excluded, it notes a grant that no other name stands against, or it declares. -/
inductive Step (b : Builder) : Call → Reply (Option Descriptor) → Prop where
  | failed (c : Call) (e : BuildError) : Step b c (b.failed e)
  | skipped (name : Literal) (hopen : b.phase = .undeclared) (hexcluded : b.excludeTests = true) :
    Step b (.grant name) ⟨b, [skippedRecord name], .ok none⟩
  | granted (name : String) (hopen : b.phase = .undeclared) (hincluded : b.excludeTests = false)
      (hheld : ∀ held ∈ b.grant, held = name) :
    Step b (.grant (.text name)) ⟨{ b with grant := some name }, [], .ok none⟩
  | declared (keywords : Entries) (d : Descriptor) (hopen : b.phase = .undeclared)
      (hgrant : d.internalAccessGrant = b.grant) :
    Step b (.declare keywords)
      ⟨{ b with descriptor := some d, phase := .declared }, [declaredRecord d], .ok (some d)⟩

/-- A grant of a name that is accepted is noted, unless another name is held. -/
theorem step_grant_name {name : String} (hopen : b.phase = .undeclared)
    (hincluded : b.excludeTests = false)
    (hname : Counterpart.ofLiteral Field.internalAccessGrant.name (.text name) = .ok name) :
    b.Step (.grant (.text name)) (b.call (.grant (.text name))) := by
  cases hgrant : b.grant with
  | none =>
    have hreply : b.call (.grant (.text name)) = ⟨{ b with grant := some name }, [], .ok none⟩ := by
      simp [call, grantAccess, hopen, hincluded, hname, hgrant, Except.map]
    rw [hreply]
    exact .granted name hopen hincluded (by simp [hgrant])
  | some held =>
    by_cases heq : held = name
    · subst heq
      -- The name is held already, so noting it again leaves the same builder.
      have hsame : b = { b with grant := some held } := by rw [← hgrant]
      have hreply : b.call (.grant (.text held)) = ⟨b, [], .ok none⟩ := by
        simp [call, grantAccess, hopen, hincluded, hname, hgrant, Except.map]
      rw [hreply, hsame]
      exact .granted held hopen hincluded (by simp)
    · have hreply : b.call (.grant (.text name)) = b.failed (.conflict held name) := by
        simp [call, grantAccess, hopen, hincluded, hname, hgrant, heq, failed, Except.map]
      rw [hreply]
      exact .failed _ _

theorem step_grant (b : Builder) (name : Literal) : b.Step (.grant name) (b.call (.grant name)) := by
  by_cases hopen : b.phase = .undeclared
  · by_cases htests : b.excludeTests = true
    · have hreply : b.call (.grant name) = ⟨b, [skippedRecord name], .ok none⟩ := by
        simp [call, grantAccess, hopen, htests, Except.map]
      rw [hreply]
      exact .skipped name hopen htests
    · have hincluded : b.excludeTests = false := by simpa using htests
      cases hname : Counterpart.ofLiteral Field.internalAccessGrant.name name with
      | error fault =>
        have hreply : b.call (.grant name) = b.failed (.fault fault) := by
          simp [call, grantAccess, hopen, hincluded, hname, failed, Except.map]
        rw [hreply]
        exact .failed _ _
      | ok asked =>
        obtain rfl := Counterpart.eq_text_of_ofLiteral hname
        exact step_grant_name hopen hincluded hname
  · have hsealed : b.phase = .declared := Phase.eq_declared hopen
    have hreply : b.call (.grant name) = b.failed .declared := by
      simp [call, grantAccess, hsealed, failed, Except.map]
    rw [hreply]
    exact .failed _ _

/-- **Every call takes one of the four steps.** -/
theorem step_call (b : Builder) (c : Call) : b.Step c (b.call c) := by
  cases c with
  | grant name => exact step_grant b name
  | declare keywords =>
    cases hread : b.declaration keywords with
    | error e =>
      have hreply : b.call (.declare keywords) = b.failed e := by
        simp [call, declare, hread, failed, Except.map]
      rw [hreply]
      exact .failed _ _
    | ok d =>
      have hreply : b.call (.declare keywords) =
          ⟨{ b with descriptor := some d, phase := .declared }, [declaredRecord d], .ok (some d)⟩ := by
        simp [call, declare, hread, Except.map]
      obtain ⟨hopen, hgrant⟩ := grant_of_declaration hread
      rw [hreply]
      exact .declared keywords d hopen hgrant

/-- A call that fails leaves the builder as it was. -/
theorem builder_of_error {e : BuildError} (h : (b.call c).result = .error e) :
    (b.call c).builder = b := by
  have hstep := step_call b c
  generalize b.call c = reply at h hstep
  cases hstep with
  | failed => rfl
  | skipped | granted | declared => cases h

/-- A call that returns was made on an undeclared builder. -/
theorem phase_of_ok {r : Option Descriptor} (h : (b.call c).result = .ok r) : b.phase = .undeclared := by
  have hstep := step_call b c
  generalize b.call c = reply at h hstep
  cases hstep with
  | failed => cases h
  | skipped _ hopen | granted _ hopen | declared _ _ hopen => exact hopen

theorem excludeTests_call (b : Builder) (c : Call) :
    (b.call c).builder.excludeTests = b.excludeTests := by
  have hstep := step_call b c
  generalize b.call c = reply at hstep
  cases hstep <;> rfl

/-- A declaration that returns leaves its descriptor in the builder and seals it. -/
theorem sealed_of_declared (h : (b.call c).result = .ok (some d)) :
    (b.call c).builder.descriptor = some d ∧ (b.call c).builder.phase = .declared := by
  have hstep := step_call b c
  generalize b.call c = reply at h hstep
  cases hstep with
  | failed | skipped | granted => cases h
  | declared _ d' =>
    obtain rfl : d' = d := Option.some.inj (Except.ok.inj h)
    exact ⟨rfl, rfl⟩

/-- Whether a call gives the builder as one of its keywords. -/
def Call.givesBuilder : Call → Bool
  | .grant _ => false
  | .declare keywords => keywords.any (·.1 = builderKeyword)

/-- A declared builder refuses every call. -/
theorem call_of_declared (h : b.phase = .declared) (hself : c.givesBuilder = false) :
    (b.call c).result = .error .declared := by
  cases c with
  | grant name => simp [call, grantAccess, h, failed, Except.map]
  | declare keywords =>
    have hkeywords : keywords.any (·.1 = builderKeyword) = false := hself
    simp [call, declare, declaration, h, hkeywords, failed, Except.map]

/-! ## What a run does -/

theorem run_cons (b : Builder) (c : Call) (rest : List Call) :
    b.run (c :: rest) = (b.call c).builder.run rest := by
  rfl

theorem run_append_singleton (b : Builder) (calls : List Call) (c : Call) :
    b.run (calls ++ [c]) = ((b.run calls).call c).builder := by
  rw [run_append]
  rfl

theorem excludeTests_run (b : Builder) (calls : List Call) :
    (b.run calls).excludeTests = b.excludeTests := by
  induction calls generalizing b with
  | nil => rfl
  | cons c rest ih => rw [run_cons, ih, excludeTests_call]

/-- **A declared builder stays as it is, whatever is called.** -/
theorem run_of_declared (h : b.phase = .declared) (calls : List Call) : b.run calls = b := by
  induction calls with
  | nil => rfl
  | cons c rest ih =>
    have hsame : (b.call c).builder = b := by
      cases hresult : (b.call c).result with
      | error e => exact builder_of_error hresult
      | ok r =>
        rw [phase_of_ok hresult] at h
        cases h
    rw [run_cons, hsame, ih]

/-! ## Phase and descriptor -/

/-- A builder whose phase tells whether it has a descriptor. -/
def Agrees (b : Builder) : Prop :=
  b.phase = .undeclared ↔ b.descriptor = none

theorem agrees_fresh (excludeTests : Bool) : Agrees { excludeTests := excludeTests } :=
  ⟨fun _ => rfl, fun _ => rfl⟩

theorem Agrees.phase_eq_declared_iff (h : b.Agrees) : b.phase = .declared ↔ ∃ d, b.descriptor = some d := by
  rw [← Option.ne_none_iff_exists', ne_eq, ← not_congr h]
  cases b.phase <;> simp

/-- **Every call keeps phase and descriptor in agreement.** -/
theorem agrees_call (h : b.Agrees) (c : Call) : (b.call c).builder.Agrees := by
  have hstep := step_call b c
  generalize b.call c = reply at hstep
  cases hstep with
  | failed | skipped | granted => exact h
  | declared => simp [Agrees]

/-- **So they agree all along a run.** -/
theorem agrees_run (h : b.Agrees) (calls : List Call) : (b.run calls).Agrees := by
  induction calls generalizing b with
  | nil => exact h
  | cons c rest ih => exact ih (agrees_call h c)

/-- The calls of a run, each with what it leaves. -/
def replies (b : Builder) : List Call → List (Call × Reply (Option Descriptor))
  | [] => []
  | c :: rest => (c, b.call c) :: (b.call c).builder.replies rest

/-- The descriptors that the declarations of a run return, in order. -/
def declarations (b : Builder) (calls : List Call) : List Descriptor :=
  (b.replies calls).filterMap fun p => p.2.result.toOption.join

/-- A call adds the descriptor that it returns to the one that is there. -/
theorem toList_descriptor_call (h : b.Agrees) (c : Call) :
    (b.call c).builder.descriptor.toList =
      b.descriptor.toList ++ (b.call c).result.toOption.join.toList := by
  have hstep := step_call b c
  generalize b.call c = reply at hstep
  cases hstep with
  | failed => simp [failed, Except.toOption]
  | skipped | granted => simp [Except.toOption]
  | declared _ _ hopen =>
    have hnone : b.descriptor = none := h.mp hopen
    simp [hnone, Except.toOption]

/-- **The descriptor of a builder is what its declarations have returned: none or one.** -/
theorem toList_descriptor_run (h : b.Agrees) (calls : List Call) :
    (b.run calls).descriptor.toList = b.descriptor.toList ++ b.declarations calls := by
  induction calls generalizing b with
  | nil => simp [run, declarations, replies]
  | cons c rest ih =>
    have hhead : b.declarations (c :: rest) =
        (b.call c).result.toOption.join.toList ++ (b.call c).builder.declarations rest := by
      cases hreturned : (b.call c).result.toOption.join <;>
        simp [declarations, replies, hreturned]
    rw [run_cons, ih (agrees_call h c), toList_descriptor_call h, hhead, List.append_assoc]

/-- **A builder is declared exactly where one declaration of its calls has returned, and then it has the
descriptor of that one. Before, it has none; after, it keeps it and every call fails as sealed. A call that
fails, whatever the reason, leaves the builder as it was.** -/
theorem sealed_by_one_declaration (excludeTests : Bool) (calls : List Call)
    (hself : ∀ c ∈ calls, c.givesBuilder = false) :
    let fresh : Builder := { excludeTests := excludeTests }
    (∀ before, before <+: calls →
        ((fresh.run before).phase = .declared ↔ ∃ d, fresh.declarations before = [d]) ∧
          (fresh.run before).descriptor = (fresh.declarations before).head?) ∧
      ∀ before c after, calls = before ++ c :: after →
        (∀ e, ((fresh.run before).call c).result = .error e →
            ((fresh.run before).call c).builder = fresh.run before) ∧
          ∀ d, ((fresh.run before).call c).result = .ok (some d) →
            (∀ earlier, earlier <+: before → (fresh.run earlier).descriptor = none) ∧
              (∀ later, later <+: after →
                (fresh.run (before ++ c :: later)).descriptor = some d) ∧
              ∀ later c' rest, after = later ++ c' :: rest →
                ((fresh.run (before ++ c :: later)).call c').result = .error .declared := by
  intro fresh
  have hagrees (before : List Call) : (fresh.run before).Agrees :=
    agrees_run (agrees_fresh excludeTests) before
  have hhistory (before : List Call) :
      (fresh.run before).descriptor.toList = fresh.declarations before :=
    toList_descriptor_run (agrees_fresh excludeTests) before
  refine ⟨?_, ?_⟩
  · intro before _
    constructor
    · rw [(hagrees before).phase_eq_declared_iff, ← hhistory before]
      cases (fresh.run before).descriptor <;> simp
    · rw [← hhistory before]
      cases (fresh.run before).descriptor <;> rfl
  · intro before c after hcalls
    refine ⟨fun e he => builder_of_error he, ?_⟩
    intro d hd
    -- From the declaration on the builder stays as the declaration has left it.
    have hkept (later : List Call) :
        (fresh.run (before ++ c :: later)).descriptor = some d ∧
          (fresh.run (before ++ c :: later)).phase = .declared := by
      rw [run_append, run_cons, run_of_declared (sealed_of_declared hd).2]
      exact sealed_of_declared hd
    refine ⟨?_, fun later _ => (hkept later).1, ?_⟩
    · rintro earlier ⟨more, rfl⟩
      apply (hagrees earlier).mp
      by_contra hsealed
      have hearlier : (fresh.run earlier).phase = .declared := Phase.eq_declared hsealed
      have hopen := phase_of_ok hd
      rw [run_append, run_of_declared hearlier, hearlier] at hopen
      cases hopen
    · rintro later c' rest rfl
      refine call_of_declared (hkept later).2 (hself c' ?_)
      simp [hcalls]

/-- The keywords of a sample declaration. -/
def sampleKeywords : Entries :=
  [("title", .text "W"), ("organization", .text "A"), ("productName", .text "W"),
    ("unique_id", .text "97DB45A8-F922-456A-A819-7B3C6E5E03BA"), ("assembly_version", .text "1.2.3.4"),
    ("fileVersion", .tuple [.integer 1, .integer 2, .integer 3, .integer 4])]

/-- A run in which calls fail before, between and after those that return: names that are refused, a second
name, keywords that name no field, one field twice or too few, and calls on the declared builder. -/
def sampleCalls : List Call :=
  [.grant (.text "two names"), .grant (.text "W.Tests"), .grant (.text "W.Other"),
    .declare [("colour", .text "red")], .declare [("fileVersion", .absent), ("file_version", .absent)],
    .declare [("title", .text "W")], .grant (.text "W.Tests"), .declare sampleKeywords,
    .grant (.text "W.Tests"), .declare sampleKeywords]

/-- The descriptor that the run declares. -/
def sampleDescriptor : Descriptor where
  title := "W"
  description := ""
  configurationTag := ""
  organization := "A"
  productName := "W"
  copyright := ""
  trademark := ""
  culture := ""
  uniqueId := "97db45a8-f922-456a-a819-7b3c6e5e03ba"
  assemblyVersion := ⟨1, 2, 3, 4⟩
  fileVersion := ⟨1, 2, 3, 4⟩
  interopVisible := false
  complianceChecked := false
  internalAccessGrant := some "W.Tests"

/-- The sample run is sealed by its eighth call, and the two calls behind it fail. -/
theorem sampleCalls_sealed :
    (∀ c ∈ sampleCalls, c.givesBuilder = false) ∧
      ((Builder.mk false none none .undeclared).run sampleCalls).phase = .declared ∧
      ((Builder.mk false none none .undeclared).run (sampleCalls.take 7)).descriptor = none ∧
      ((Builder.mk false none none .undeclared).run sampleCalls).descriptor = some sampleDescriptor ∧
      (((Builder.mk false none none .undeclared).run (sampleCalls.take 9)).call (.declare sampleKeywords)).result =
        .error .declared := by
  have hself : ∀ c ∈ sampleCalls, c.givesBuilder = false := by decide +kernel
  obtain ⟨hphases, hcalls⟩ := sealed_by_one_declaration false sampleCalls hself
  have hreturned : (((Builder.mk false none none .undeclared).run (sampleCalls.take 7)).call
      (.declare sampleKeywords)).result = .ok (some sampleDescriptor) :=
    eq_ok_of_toOption (by decide +kernel)
  obtain ⟨-, hsealed⟩ := hcalls (sampleCalls.take 7) (.declare sampleKeywords) (sampleCalls.drop 8) rfl
  obtain ⟨hbefore, hafter, hrefused⟩ := hsealed sampleDescriptor hreturned
  refine ⟨hself, ?_, hbefore _ List.prefix_rfl, hafter _ List.prefix_rfl, ?_⟩
  · exact (hphases sampleCalls List.prefix_rfl).1.mpr ⟨sampleDescriptor, by decide +kernel⟩
  · exact hrefused [.grant (.text "W.Tests")] (.declare sampleKeywords) [] rfl

end Builder

end ArtifactIdentity
