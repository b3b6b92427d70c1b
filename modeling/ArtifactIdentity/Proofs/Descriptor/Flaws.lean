import ArtifactIdentity.Proofs.Descriptor.WellFormed

/-!
# The first flaw of a table

What reading makes of a field hangs on the literal that the table gives for it, if it gives one, and not on
the spelling of the key. The issues of a table stand in the order of the fields, so the fault that is
surfaced is that of the first field with a flaw. Two tables that say the same of every field are therefore
read alike, down to the fault.
-/

namespace ArtifactIdentity

/-- The issue that is surfaced is the first. -/
theorem Checked.surfaced_eq_error_iff {α : Type} {x : Checked α} {fault : Fault} :
    x.surfaced = .error fault ↔ x.issues.head?.map Issue.surface = some fault := by
  cases x <;> simp [surfaced, issues]

/-! ## The flaw of a field -/

/-- The problem for which a rule refuses a literal, if it does. -/
def Coercion.problem? {α : Type} : Except Problem α → Option Problem
  | .ok _ => none
  | .error problem => some problem

namespace Field

/-- Whether every table has to give a literal for a field. -/
def isRequired : Field → Bool
  | .title | .organization | .productName | .uniqueId | .assemblyVersion | .fileVersion => true
  | _ => false

/-- The problem that the rule of a field has with a literal. -/
def problem? (f : Field) (l : Literal) : Option Problem :=
  match f with
  | .title | .organization | .productName => Coercion.problem? (Coercion.shownText f l)
  | .description | .configurationTag | .copyright | .trademark | .culture =>
    Coercion.problem? (Coercion.text l)
  | .uniqueId => Coercion.problem? (Coercion.uniqueId l)
  | .assemblyVersion | .fileVersion => Coercion.problem? (Coercion.version f l)
  | .interopVisible | .complianceChecked => Coercion.problem? (Coercion.flag l)
  | .internalAccessGrant => Coercion.problem? (Coercion.grant l)

/-- The issue of a table with a field, if there is one. -/
def issue? (f : Field) (entries : Entries) : Option Issue :=
  match f.given? entries with
  | none => if f.isRequired then some ⟨[f.blockName], .missing, .table entries⟩ else none
  | some (spelling, l) => (f.problem? l).map fun problem => ⟨[spelling], problem, l⟩

/-- The literal that a table gives for a field, by whatever spelling. -/
def literal? (f : Field) (entries : Entries) : Option Literal :=
  (f.given? entries).map Prod.snd

/-- The fault of a field for which a literal is given or left out. -/
def fault? (f : Field) : Option Literal → Option Fault
  | none => if f.isRequired then some (Fault.of f.name .absent Problem.missing.message) else none
  | some l => (f.problem? l).map fun problem => Issue.surface ⟨[f.name], problem, l⟩

variable {α : Type} {f : Field} {entries : Entries} {accept : Literal → Except Problem α}

theorem issues_required :
    (f.required entries accept).issues =
      match f.given? entries with
      | none => [⟨[f.blockName], .missing, .table entries⟩]
      | some (spelling, l) =>
        ((Coercion.problem? (accept l)).map fun problem => ⟨[spelling], problem, l⟩).toList := by
  unfold required
  cases f.given? entries with
  | none => rfl
  | some given =>
    obtain ⟨spelling, l⟩ := given
    cases h : accept l <;> simp [h, Coercion.problem?, Checked.issues]

theorem issues_optional {default : α} :
    (f.optional entries default accept).issues =
      match f.given? entries with
      | none => []
      | some (spelling, l) =>
        ((Coercion.problem? (accept l)).map fun problem => ⟨[spelling], problem, l⟩).toList := by
  unfold optional
  cases h : f.given? entries with
  | none => rfl
  | some given =>
    have hrequired := @issues_required α f entries accept
    simpa [h] using hrequired

/-- A place that spells a field is the place of that field. -/
theorem fieldName_of_spelling {spelling : String} {problem : Problem} {l : Literal}
    (h : ofSpelling? spelling = some f) : (Issue.mk [spelling] problem l).fieldName = f.name := by
  have hplace : (Issue.mk [spelling] problem l).placeText = spelling := by
    rw [Issue.placeText, String.intercalate_singleton]
  simp only [Issue.fieldName, List.cons_ne_nil, if_false, hplace, h]
  rfl

/-- The spelling of a field leaves no trace in the fault. -/
theorem surface_of_spelling {spelling : String} {problem : Problem} {l : Literal}
    (h : ofSpelling? spelling = some f) :
    (Issue.mk [spelling] problem l).surface = (Issue.mk [f.name] problem l).surface := by
  have hname : ofSpelling? f.name = some f := ofSpelling?_eq_some_iff.mpr (Or.inl rfl)
  unfold Issue.surface
  rw [fieldName_of_spelling h, fieldName_of_spelling hname]
  rfl

theorem ofSpelling?_of_given? {spelling : String} {l : Literal}
    (h : f.given? entries = some (spelling, l)) : ofSpelling? spelling = some f := by
  rw [ofSpelling?_eq_some_iff]
  unfold given? at h
  split at h
  · obtain ⟨rfl, -⟩ := Prod.mk.inj (Option.some.inj h)
    exact Or.inr rfl
  · obtain ⟨_, -, heq⟩ := Option.map_eq_some_iff.mp h
    obtain ⟨rfl, -⟩ := Prod.mk.inj heq
    exact Or.inl rfl

/-- **The fault of a field is told by the literal that is given for it.** -/
theorem surface_issue? (f : Field) (entries : Entries) :
    (f.issue? entries).map Issue.surface = f.fault? (f.literal? entries) := by
  unfold issue? literal?
  cases h : f.given? entries with
  | none =>
    have hblock : ofSpelling? f.blockName = some f := ofSpelling?_eq_some_iff.mpr (Or.inr rfl)
    by_cases hrequired : f.isRequired = true
    · simp [fault?, hrequired, Issue.surface, fieldName_of_spelling hblock, Issue.subject]
    · simp [fault?, hrequired]
  | some given =>
    obtain ⟨spelling, l⟩ := given
    have hspelling := ofSpelling?_of_given? h
    cases hproblem : f.problem? l with
    | none => simp [fault?, hproblem]
    | some problem => simp [fault?, hproblem, surface_of_spelling hspelling]

end Field

namespace Descriptor

variable {entries entries' : Entries} {d : Descriptor}

/-- The issues of the fields of a table are those of one field after the other. -/
theorem issues_checkFields (entries : Entries) :
    (checkFields entries).issues = Field.all.flatMap fun f => (f.issue? entries).toList := by
  have required {α : Type} {f : Field} {accept : Literal → Except Problem α}
      (hrequired : f.isRequired = true)
      (hproblem : ∀ l, f.problem? l = Coercion.problem? (accept l)) :
      (f.required entries accept).issues = (f.issue? entries).toList := by
    rw [Field.issues_required, Field.issue?]
    cases f.given? entries with
    | none => simp [hrequired]
    | some given => simp [hproblem]
  have optional {α : Type} {f : Field} {default : α} {accept : Literal → Except Problem α}
      (hrequired : f.isRequired = false)
      (hproblem : ∀ l, f.problem? l = Coercion.problem? (accept l)) :
      (f.optional entries default accept).issues = (f.issue? entries).toList := by
    rw [Field.issues_optional, Field.issue?]
    cases f.given? entries with
    | none => simp [hrequired]
    | some given => simp [hproblem]
  simp only [checkFields, Checked.issues_ap, Checked.issues_map, Field.all, List.flatMap_cons,
    List.flatMap_nil, List.append_nil, List.append_assoc]
  rw [required (f := .title) rfl fun _ => rfl, optional (f := .description) rfl fun _ => rfl,
    optional (f := .configurationTag) rfl fun _ => rfl, required (f := .organization) rfl fun _ => rfl,
    required (f := .productName) rfl fun _ => rfl, optional (f := .copyright) rfl fun _ => rfl,
    optional (f := .trademark) rfl fun _ => rfl, optional (f := .culture) rfl fun _ => rfl,
    required (f := .uniqueId) rfl fun _ => rfl, required (f := .assemblyVersion) rfl fun _ => rfl,
    required (f := .fileVersion) rfl fun _ => rfl, optional (f := .interopVisible) rfl fun _ => rfl,
    optional (f := .complianceChecked) rfl fun _ => rfl,
    optional (f := .internalAccessGrant) rfl fun _ => rfl]

/-- **The fault of a table without strange keys is that of its first field with a flaw.** -/
theorem surfaced_eq_error_iff {fault : Fault} (hextra : extraIssues entries = []) :
    (ofEntries entries).surfaced = .error fault ↔
      (Field.all.findSome? fun f => f.fault? (f.literal? entries)) = some fault := by
  have hfirst : (ofEntries entries).issues.head?.map Issue.surface =
      Field.all.findSome? fun f => f.fault? (f.literal? entries) := by
    rw [ofEntries, Checked.issues_alsoFlawed, hextra, List.append_nil, issues_checkFields,
      List.head?_flatMap, List.map_findSome?]
    congr 1
    funext f
    rw [Function.comp_apply, ← f.surface_issue? entries]
    cases f.issue? entries <;> rfl
  rw [Checked.surfaced_eq_error_iff, hfirst]

/-! ## Tables that say the same -/

/-- A literal given for a field, or none, says what a descriptor has there. -/
def Says (d : Descriptor) (f : Field) : Option Literal → Prop
  | some l => d.States f l
  | none => d.Omits f

theorem statedBy_iff {f : Field} : d.StatedBy entries f ↔ d.Says f (f.literal? entries) := by
  unfold StatedBy Field.literal?
  cases f.given? entries <;> exact Iff.rfl

end Descriptor

/-- What is given for a field comes to the same, be it a fact or a fault. -/
structure Field.SaySame (f : Field) (a b : Option Literal) : Prop where
  fault : f.fault? a = f.fault? b
  facts : ∀ d : Descriptor, d.Says f a ↔ d.Says f b

theorem Field.SaySame.refl (f : Field) (a : Option Literal) : f.SaySame a a :=
  ⟨rfl, fun _ => Iff.rfl⟩

/-- **Tables that say the same of every field are read alike.** -/
theorem Descriptor.surfaced_congr {entries entries' : Entries} (hextra : extraIssues entries = [])
    (hextra' : extraIssues entries' = [])
    (h : ∀ f : Field, f.SaySame (f.literal? entries) (f.literal? entries')) :
    (ofEntries entries).surfaced = (ofEntries entries').surfaced := by
  cases hread : (ofEntries entries).surfaced with
  | error fault =>
    symm
    rw [surfaced_eq_error_iff hextra] at hread
    rw [surfaced_eq_error_iff hextra', ← hread]
    congr 1
    funext f
    exact (h f).fault.symm
  | ok d =>
    symm
    rw [Checked.surfaced_eq_ok_iff, ofEntries_eq_sound_iff] at hread
    rw [Checked.surfaced_eq_ok_iff, ofEntries_eq_sound_iff]
    constructor
    · intro f
      rw [statedBy_iff, ← (h f).facts, ← statedBy_iff]
      exact hread.1 f
    · exact extraIssues_eq_nil_iff.mp hextra'

/-! ## What a fault is about -/

/-- A fault is about a field and the literal given for it: where it is a malformed identity, it names them. -/
def Fault.IsAbout (fault : Fault) (field : String) (literal : Literal) : Prop :=
  ∀ x, fault = .malformed x → ∃ reason, fault = Fault.of field literal reason

theorem Fault.field_of_eq {field reason : String} {literal : Literal} {x : Malformed}
    (h : Fault.of field literal reason = .malformed x) : x.field = field := by
  unfold Fault.of at h
  split at h
  · obtain rfl := Fault.malformed.inj h
    rfl
  · cases h

theorem isAbout_of_refuse {α : Type} {field reason : String} {literal : Literal} {fault : Fault}
    (h : (refuse field literal reason : Except Fault α) = .error fault) :
    fault.IsAbout field literal := by
  intro x _
  exact ⟨reason, (Except.error.inj h).symm⟩

theorem UniqueId.isAbout_of_ofLiteral {field : String} {literal : Literal} {fault : Fault}
    (h : ofLiteral field literal = .error fault) : fault.IsAbout field literal := by
  unfold ofLiteral at h
  split at h
  · cases h
  · split at h
    · cases h
    · exact isAbout_of_refuse h
  · exact isAbout_of_refuse h

theorem Counterpart.isAbout_of_ofLiteral {field : String} {literal : Literal} {fault : Fault}
    (h : ofLiteral field literal = .error fault) : fault.IsAbout field literal := by
  unfold ofLiteral at h
  split at h
  · split at h
    · exact isAbout_of_refuse h
    · split at h
      · exact isAbout_of_refuse h
      · cases h
  · exact isAbout_of_refuse h

namespace Version

theorem isAbout_of_ofIntegers {field : String} {literal : Literal} {numbers : List Int} {fault : Fault}
    (h : ofIntegers field literal numbers = .error fault) : fault.IsAbout field literal := by
  unfold ofIntegers at h
  split at h
  · split at h
    · exact isAbout_of_refuse h
    · cases h
  · exact isAbout_of_refuse h

/-- A numeral is only ever refused for the number of its digits. -/
theorem exists_digits_of_numbersOf {parts : List (List Char)} {fault : Fault}
    (h : numbersOf parts = .error fault) : ∃ limit, fault = .digits limit := by
  induction parts with
  | nil => cases h
  | cons cs rest ih =>
    rw [numbersOf] at h
    split at h
    · exact ⟨_, (Except.error.inj h).symm⟩
    · cases hrest : numbersOf rest with
      | error cause =>
        rw [hrest] at h
        obtain rfl := Except.error.inj h
        exact ih hrest
      | ok numbers =>
        rw [hrest] at h
        cases h

theorem isAbout_of_ofLiteral {field : String} {literal : Literal} {fault : Fault}
    (h : ofLiteral field literal = .error fault) : fault.IsAbout field literal := by
  unfold ofLiteral at h
  split at h
  · rename_i s
    simp only [ofText] at h
    split at h
    · exact isAbout_of_refuse h
    · split at h
      · exact isAbout_of_refuse h
      · cases hnumbers : numbersOf (Text.splitAt '.' (Text.trim s.toList)) with
        | error cause =>
          rw [hnumbers] at h
          obtain rfl := Except.error.inj h
          obtain ⟨limit, rfl⟩ := exists_digits_of_numbersOf hnumbers
          rintro x ⟨⟩
        | ok numbers =>
          rw [hnumbers] at h
          exact isAbout_of_ofIntegers h
  · split at h
    · exact isAbout_of_refuse h
    · split at h
      · exact isAbout_of_refuse h
      · exact isAbout_of_ofIntegers h

end Version

/-- A problem that a rule has with a literal of a field is told without the field, or is about it. -/
def Problem.IsAbout (problem : Problem) (f : Field) (l : Literal) : Prop :=
  problem ≠ .missing ∧ ∀ fault, problem = .refused fault → fault.IsAbout f.name l

namespace Coercion

variable {f : Field} {l : Literal} {problem : Problem}

/-- A rule of the identity refuses only for a fault about the field. -/
theorem isAbout_of_ruled {α : Type} {result : Except Fault α}
    (hresult : ∀ fault, result = .error fault → fault.IsAbout f.name l)
    (h : problem? (ruled result) = some problem) : problem.IsAbout f l := by
  cases result with
  | ok a => cases h
  | error fault =>
    obtain rfl : Problem.refused fault = problem := Option.some.inj h
    constructor
    · rintro ⟨⟩
    · rintro cause ⟨⟩
      exact hresult fault rfl

theorem isAbout_of_shownText (h : problem? (shownText f l) = some problem) : problem.IsAbout f l := by
  unfold shownText at h
  split at h
  · split at h
    · exact isAbout_of_ruled (fun _ => isAbout_of_refuse) h
    · cases h
  · exact isAbout_of_ruled (fun _ => isAbout_of_refuse) h

/-- The rule for texts knows nothing of faults. -/
theorem isAbout_of_text (h : problem? (text l) = some problem) : problem.IsAbout f l := by
  have hplain : problem = .notText ∨ problem = .notUnicode := by
    unfold text textOfBytes at h
    split at h
    · cases h
    · split at h
      · cases h
      · exact Or.inr (Option.some.inj h).symm
    · split at h
      · cases h
      · exact Or.inr (Option.some.inj h).symm
    · exact Or.inl (Option.some.inj h).symm
  rcases hplain with rfl | rfl
  all_goals exact ⟨Problem.noConfusion, fun _ => Problem.noConfusion⟩

theorem isAbout_of_flag (h : problem? (flag l) = some problem) : problem.IsAbout f l := by
  have hword (s : String) (h : problem? (flagOfWord s) = some problem) : problem = .unclearFlag := by
    unfold flagOfWord at h
    dsimp only at h
    split at h
    · cases h
    · split at h
      · cases h
      · exact (Option.some.inj h).symm
  have hint (n : Int) (h : problem? (flagOfInt n) = some problem) :
      problem = .notFlag ∨ problem = .unclearFlag := by
    unfold flagOfInt at h
    split at h
    · cases h
    split at h
    · cases h
    split at h
    · exact Or.inr (Option.some.inj h).symm
    · exact Or.inl (Option.some.inj h).symm
  have hplain : problem = .notFlag ∨ problem = .unclearFlag := by
    unfold flag flagOfFloat at h
    split at h
    · cases h
    · exact hint _ h
    · split at h
      · split at h
        · exact Or.inl (Option.some.inj h).symm
        · exact hint _ h
      · exact Or.inl (Option.some.inj h).symm
    · exact Or.inr (hword _ h)
    · split at h
      · exact Or.inr (hword _ h)
      · exact Or.inr (Option.some.inj h).symm
    · exact Or.inl (Option.some.inj h).symm
  rcases hplain with rfl | rfl
  all_goals exact ⟨Problem.noConfusion, fun _ => Problem.noConfusion⟩

theorem isAbout_of_grant (h : problem? (grant l) = some problem) :
    problem.IsAbout .internalAccessGrant l := by
  unfold grant at h
  split at h
  · cases h
  · refine isAbout_of_ruled ?_ h
    intro fault hfault
    cases hname : Counterpart.ofLiteral Field.internalAccessGrant.name l with
    | ok name =>
      rw [hname] at hfault
      cases hfault
    | error cause =>
      rw [hname] at hfault
      obtain rfl := Except.error.inj hfault
      exact Counterpart.isAbout_of_ofLiteral hname

end Coercion

namespace Field

variable {f : Field} {l : Literal}

theorem isAbout_of_problem? {problem : Problem} (h : f.problem? l = some problem) :
    problem.IsAbout f l := by
  cases f with
  | title | organization | productName => exact Coercion.isAbout_of_shownText h
  | description | configurationTag | copyright | trademark | culture =>
    exact Coercion.isAbout_of_text h
  | uniqueId => exact Coercion.isAbout_of_ruled (fun _ => UniqueId.isAbout_of_ofLiteral) h
  | assemblyVersion | fileVersion =>
    exact Coercion.isAbout_of_ruled (fun _ => Version.isAbout_of_ofLiteral) h
  | interopVisible | complianceChecked => exact Coercion.isAbout_of_flag h
  | internalAccessGrant => exact Coercion.isAbout_of_grant h

/-- **The fault of a field names the field and the literal that was given for it, or none.** -/
theorem exists_reason_of_fault? {given : Option Literal} {fault : Fault}
    (h : f.fault? given = some fault) :
    ∃ reason, fault = Fault.of f.name (given.getD .absent) reason := by
  cases given with
  | none =>
    rw [fault?] at h
    split at h
    · exact ⟨_, (Option.some.inj h).symm⟩
    · cases h
  | some l =>
    obtain ⟨problem, hproblem, rfl⟩ := Option.map_eq_some_iff.mp h
    obtain ⟨hmissing, habout⟩ := isAbout_of_problem? hproblem
    have hname : ofSpelling? f.name = some f := ofSpelling?_eq_some_iff.mpr (Or.inl rfl)
    unfold Issue.surface
    split
    · rename_i x hx
      obtain ⟨reason, hreason⟩ := habout _ hx x rfl
      exact ⟨reason, hreason⟩
    · refine ⟨problem.message, ?_⟩
      have hsubject : (Issue.mk [f.name] problem l).subject = l := by
        cases problem with
        | missing => exact absurd rfl hmissing
        | _ => rfl
      rw [fieldName_of_spelling hname, hsubject]
      rfl

end Field

end ArtifactIdentity
