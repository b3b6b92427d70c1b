import ArtifactIdentity.Proofs.Descriptor.Sealing
import Mathlib.Data.List.Induction

/-!
# Who may see internal members

A builder holds one name at most, and it is the name in every grant of the run that has returned. The
descriptor takes that name over, so it tells of the grants what the run has settled: the requester with
access is the one that was granted it before the declaration, and there is none where tests are excluded.
-/

namespace ArtifactIdentity

theorem Descriptor.canAccessInternals_iff {d : Descriptor} {r : String} :
    d.canAccessInternals (.text r) = true ↔ d.internalAccessGrant = some r := by
  unfold canAccessInternals
  cases d.internalAccessGrant <;> simp [eq_comm]

namespace Builder

variable {b : Builder} {calls : List Call} {names : List Literal} {name : Literal}

/-! ## The grants of a run -/

/-- The name in a call that is a grant and returns. -/
def grantedName? (c : Call) (reply : Reply (Option Descriptor)) : Option Literal :=
  match c, reply.result with
  | .grant name, .ok _ => some name
  | _, _ => none

/-- The names in the grants of a run that return, in order. -/
def grants (b : Builder) (calls : List Call) : List Literal :=
  (b.replies calls).filterMap fun p => grantedName? p.1 p.2

theorem grants_cons (b : Builder) (c : Call) (rest : List Call) :
    b.grants (c :: rest) = (grantedName? c (b.call c)).toList ++ (b.call c).builder.grants rest := by
  cases h : grantedName? c (b.call c) <;> simp [grants, replies, h]

theorem replies_append_singleton (b : Builder) (calls : List Call) (c : Call) :
    b.replies (calls ++ [c]) = b.replies calls ++ [(c, (b.run calls).call c)] := by
  induction calls generalizing b with
  | nil => rfl
  | cons first rest ih =>
    rw [List.cons_append, replies, replies, ih]
    rfl

theorem grants_append_singleton (b : Builder) (calls : List Call) (c : Call) :
    b.grants (calls ++ [c]) = b.grants calls ++ (grantedName? c ((b.run calls).call c)).toList := by
  rw [grants, replies_append_singleton, List.filterMap_append]
  cases h : grantedName? c ((b.run calls).call c) <;> simp [grants, h]

/-- A grant has nothing to return. -/
theorem grantedName?_eq_some_iff {c : Call} :
    grantedName? c (b.call c) = some name ↔
      c = .grant name ∧ (b.call (.grant name)).result = .ok none := by
  have hstep := step_call b c
  constructor
  · intro h
    generalize hreply : b.call c = reply at h hstep
    cases hstep with
    | failed => cases c <;> cases h
    | skipped | granted =>
      obtain rfl := Option.some.inj h
      exact ⟨rfl, congrArg Reply.result hreply⟩
    | declared => cases h
  · rintro ⟨rfl, h⟩
    simp only [grantedName?, h]

/-- **A name is among the grants exactly where a grant of it has returned somewhere in the run.** -/
theorem mem_grants_iff :
    name ∈ b.grants calls ↔
      ∃ before after, calls = before ++ .grant name :: after ∧
        ((b.run before).call (.grant name)).result = .ok none := by
  induction calls generalizing b with
  | nil => simp [grants, replies]
  | cons c rest ih =>
    rw [grants_cons, List.mem_append, Option.mem_toList, grantedName?_eq_some_iff, ih]
    constructor
    · rintro (⟨rfl, hreturned⟩ | ⟨before, after, rfl, hreturned⟩)
      · exact ⟨[], rest, rfl, hreturned⟩
      · exact ⟨c :: before, after, rfl, hreturned⟩
    · rintro ⟨before, after, hcalls, hreturned⟩
      cases before with
      | nil =>
        obtain ⟨rfl, rfl⟩ := List.cons.inj hcalls
        exact Or.inl ⟨rfl, hreturned⟩
      | cons first before =>
        obtain ⟨rfl, rfl⟩ := List.cons.inj hcalls
        exact Or.inr ⟨before, after, rfl, hreturned⟩

/-! ## What a builder holds -/

/-- What a builder holds once grants of some names have returned: the one name that they all have, or
nothing where tests are excluded; and its descriptor has the same. -/
structure Holds (b : Builder) (names : List Literal) : Prop where
  only : b.excludeTests = false → ∀ name ∈ names, b.grant.map Literal.text = some name
  nothing : b.excludeTests = true ∨ names = [] → b.grant = none
  declared : ∀ d ∈ b.descriptor, d.internalAccessGrant = b.grant

theorem holds_call (hagrees : b.Agrees) (h : b.Holds names) (c : Call) :
    (b.call c).builder.Holds (names ++ (grantedName? c (b.call c)).toList) := by
  have hstep := step_call b c
  generalize b.call c = reply at hstep
  cases hstep with
  | failed _ e =>
    have hnone : grantedName? c (b.failed e) = none := by cases c <;> rfl
    rw [hnone, Option.toList_none, List.append_nil]
    exact h
  | skipped name hopen hexcluded =>
    refine ⟨?_, ?_, h.declared⟩
    · intro hincluded
      rw [hexcluded] at hincluded
      cases hincluded
    · intro _
      exact h.nothing (Or.inl hexcluded)
  | granted name hopen hincluded hheld =>
    refine ⟨?_, ?_, ?_⟩
    · intro _ l hl
      rcases List.mem_append.mp hl with hbefore | hnow
      · -- An earlier name is held, and the builder holds no other than the new one.
        obtain ⟨held, hgrant, rfl⟩ := Option.map_eq_some_iff.mp (h.only hincluded l hbefore)
        rw [hheld held hgrant]
        rfl
      · have hname : l = .text name := by simpa [grantedName?] using hnow
        rw [hname]
        rfl
    · rintro (hexcluded | hnames)
      · rw [hincluded] at hexcluded
        cases hexcluded
      · simp [grantedName?] at hnames
    · intro d hd
      rw [Option.mem_def, hagrees.mp hopen] at hd
      cases hd
  | declared keywords d hopen hgrant =>
    have hnone : grantedName? (.declare keywords)
        ⟨{ b with descriptor := some d, phase := .declared }, [declaredRecord d], .ok (some d)⟩ = none := rfl
    rw [hnone, Option.toList_none, List.append_nil]
    refine ⟨h.only, h.nothing, ?_⟩
    intro d' hd'
    obtain rfl := Option.some.inj hd'
    exact hgrant

/-- **A run holds what its grants have named.** -/
theorem holds_run (excludeTests : Bool) (calls : List Call) :
    ((Builder.mk excludeTests none none .undeclared).run calls).Holds
      ((Builder.mk excludeTests none none .undeclared).grants calls) := by
  induction calls using List.reverseRecOn with
  | nil =>
    refine ⟨?_, fun _ => rfl, ?_⟩
    · intro _ name hname
      cases hname
    · intro d hd
      cases hd
  | append_singleton calls c ih =>
    rw [run_append_singleton, grants_append_singleton]
    exact holds_call (agrees_run (agrees_fresh excludeTests) calls) ih c

/-- With tests the names are one, which is held, or there is none. -/
theorem Holds.one_name (h : b.Holds names) (hincluded : b.excludeTests = false) :
    (∃ name, names ≠ [] ∧ (∀ l ∈ names, l = .text name) ∧ b.grant = some name) ∨
      names = [] ∧ b.grant = none := by
  cases names with
  | nil => exact Or.inr ⟨rfl, h.nothing (Or.inr rfl)⟩
  | cons first rest =>
    obtain ⟨name, hname, _⟩ := Option.map_eq_some_iff.mp (h.only hincluded first List.mem_cons_self)
    refine Or.inl ⟨name, List.cons_ne_nil _ _, ?_, hname⟩
    intro l hl
    have hl := h.only hincluded l hl
    rw [hname] at hl
    exact (Option.some.inj hl).symm

/-- A name is held exactly where tests are kept and it was granted. -/
theorem Holds.grant_eq_some_iff (h : b.Holds names) {r : String} :
    b.grant = some r ↔ b.excludeTests = false ∧ .text r ∈ names := by
  constructor
  · intro hr
    have hsome : ¬ (b.excludeTests = true ∨ names = []) := by
      intro hor
      rw [h.nothing hor] at hr
      cases hr
    rw [not_or, Bool.not_eq_true] at hsome
    obtain ⟨l, hl⟩ := List.exists_mem_of_ne_nil _ hsome.2
    have hheld := h.only hsome.1 l hl
    rw [hr] at hheld
    obtain rfl : .text r = l := Option.some.inj hheld
    exact ⟨hsome.1, hl⟩
  · rintro ⟨hincluded, hl⟩
    obtain ⟨name, hname, htext⟩ := Option.map_eq_some_iff.mp (h.only hincluded _ hl)
    rw [hname, Literal.text.inj htext]

/-- A run is the same without a call in it that fails. -/
theorem run_of_failed {before after : List Call} {c : Call} {e : BuildError}
    (h : ((b.run before).call c).result = .error e) :
    b.run (before ++ after) = b.run (before ++ c :: after) := by
  rw [run_append, run_append, run_cons, builder_of_error h]

/-- Where tests are excluded a grant returns on every open builder, whatever the name. -/
theorem call_of_excludeTests (hopen : b.phase = .undeclared) (hexcluded : b.excludeTests = true)
    (name : Literal) : (b.call (.grant name)).result = .ok none := by
  simp [call, grantAccess, hopen, hexcluded, Except.map]

/-- **The access that a declared descriptor gives is what the grants of its run have settled.** With tests,
all grants that returned had one name, which the descriptor has, and it has none where no grant returned.
Without tests no grant before the declaration fails, whatever its name, and the descriptor has none. So a
requester has access exactly where tests are kept and a grant to it returned before the declaration, no two
requesters have access, and a call that fails has no part in it: the run is the same without it. -/
theorem access_follows_grants (excludeTests : Bool) (calls : List Call) (d : Descriptor)
    (h : ((Builder.mk excludeTests none none .undeclared).run calls).descriptor = some d) :
    let fresh : Builder := { excludeTests := excludeTests }
    (excludeTests = false →
        (∃ name, fresh.grants calls ≠ [] ∧ (∀ l ∈ fresh.grants calls, l = .text name) ∧
            d.internalAccessGrant = some name) ∨
          fresh.grants calls = [] ∧ d.internalAccessGrant = none) ∧
      (excludeTests = true →
        d.internalAccessGrant = none ∧
          ∀ before name after, calls = before ++ .grant name :: after →
            (fresh.run before).phase = .undeclared →
              ((fresh.run before).call (.grant name)).result = .ok none) ∧
      (∀ r, d.canAccessInternals (.text r) = true ↔
        excludeTests = false ∧
          ∃ before after, calls = before ++ .grant (.text r) :: after ∧
            (fresh.run before).phase = .undeclared ∧
              ((fresh.run before).call (.grant (.text r))).result = .ok none) ∧
      (∀ r r', d.canAccessInternals (.text r) = true → d.canAccessInternals (.text r') = true →
        r = r') ∧
      ∀ before c after e, calls = before ++ c :: after →
        ((fresh.run before).call c).result = .error e →
          fresh.run (before ++ after) = fresh.run calls := by
  intro fresh
  have hholds : (fresh.run calls).Holds (fresh.grants calls) := holds_run excludeTests calls
  have htests : (fresh.run calls).excludeTests = excludeTests := excludeTests_run fresh calls
  have hgrant : d.internalAccessGrant = (fresh.run calls).grant := hholds.declared d h
  refine ⟨?_, ?_, ?_, ?_, ?_⟩
  · intro hincluded
    rw [hgrant]
    exact hholds.one_name (htests.trans hincluded)
  · intro hexcluded
    refine ⟨hgrant.trans (hholds.nothing (Or.inl (htests.trans hexcluded))), ?_⟩
    intro before name after _ hopen
    apply call_of_excludeTests hopen
    exact (excludeTests_run fresh before).trans hexcluded
  · intro r
    rw [Descriptor.canAccessInternals_iff, hgrant, hholds.grant_eq_some_iff, htests, mem_grants_iff]
    constructor
    · rintro ⟨hincluded, before, after, hcalls, hreturned⟩
      exact ⟨hincluded, before, after, hcalls, phase_of_ok hreturned, hreturned⟩
    · rintro ⟨hincluded, before, after, hcalls, _, hreturned⟩
      exact ⟨hincluded, before, after, hcalls, hreturned⟩
  · intro r r' hr hr'
    rw [Descriptor.canAccessInternals_iff] at hr hr'
    rw [hr] at hr'
    exact Option.some.inj hr'
  · rintro before c after e rfl hfailed
    exact run_of_failed hfailed

/-- In the sample run one requester has access, and not the one whose grant was in conflict; with tests
excluded the same calls give access to nobody. -/
theorem access_of_sampleCalls :
    ((Builder.mk false none none .undeclared).run sampleCalls).descriptor = some sampleDescriptor ∧
      sampleDescriptor.canAccessInternals (.text "W.Tests") = true ∧
      sampleDescriptor.canAccessInternals (.text "W.Other") = false ∧
      ∃ d, ((Builder.mk true none none .undeclared).run sampleCalls).descriptor = some d ∧
        d.internalAccessGrant = none := by
  have hdeclared : ((Builder.mk false none none .undeclared).run sampleCalls).descriptor = some sampleDescriptor := by
    decide +kernel
  have hexcluded : ((Builder.mk true none none .undeclared).run sampleCalls).descriptor =
      some { sampleDescriptor with internalAccessGrant := none } := by
    decide +kernel
  obtain ⟨-, -, haccess, hone, -⟩ := access_follows_grants false sampleCalls sampleDescriptor hdeclared
  obtain ⟨-, hnobody, -, -, -⟩ := access_follows_grants true sampleCalls _ hexcluded
  have htests : sampleDescriptor.canAccessInternals (.text "W.Tests") = true := by
    refine (haccess "W.Tests").mpr ⟨rfl, [.grant (.text "two names")], sampleCalls.drop 2, rfl, ?_, ?_⟩
    · decide +kernel
    · exact eq_ok_of_toOption (by decide +kernel)
  refine ⟨hdeclared, htests, ?_, _, hexcluded, (hnobody rfl).1⟩
  cases hother : sampleDescriptor.canAccessInternals (.text "W.Other") with
  | false => rfl
  | true => exact absurd (hone _ _ htests hother) (by decide)

end Builder

end ArtifactIdentity
