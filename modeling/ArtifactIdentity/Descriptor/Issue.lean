import ArtifactIdentity.Identity.Malformed

/-!
# Issues and checked values

Reading a record from a table finds every flaw of the table, not only the first. An issue is one flaw: the
place, the problem and the literal that has it. A checked value is either sound or a list of issues, in
the order in which they were found, and putting two checked values together keeps the issues of both.
-/

namespace ArtifactIdentity

/-- What is wrong with the literal at a place. -/
inductive Problem where
  | missing
  | extra
  | notText
  | notUnicode
  | notFlag
  | unclearFlag
  | notRecord (record : String)
  | refused (fault : Fault)
  | frozen

def Problem.code : Problem → String
  | .missing => "missing"
  | .extra => "extra_forbidden"
  | .notText => "string_type"
  | .notUnicode => "string_unicode"
  | .notFlag => "bool_type"
  | .unclearFlag => "bool_parsing"
  | .notRecord _ => "model_type"
  | .refused _ => "value_error"
  | .frozen => "frozen_instance"

def Problem.message : Problem → String
  | .missing => "Field required"
  | .extra => "Extra inputs are not permitted"
  | .notText => "Input should be a valid string"
  | .notUnicode =>
    "Input should be a valid string, unable to parse raw data as a unicode string"
  | .notFlag => "Input should be a valid boolean"
  | .unclearFlag => "Input should be a valid boolean, unable to interpret input"
  | .notRecord record => "Input should be a valid dictionary or instance of " ++ record
  | .refused fault => "Value error, " ++ fault.message
  | .frozen => "Instance is frozen"

/-- One flaw: the names that lead to it, the problem, and the literal that was given there. -/
structure Issue where
  place : List String
  problem : Problem
  literal : Literal

def Issue.placeText (i : Issue) : String :=
  ".".intercalate i.place

/-- What is wrong with setting a name on a record that is complete: whatever the name, it is frozen. -/
def Issue.ofAssignment (name : String) (value : Literal) : Issue :=
  ⟨[name], .frozen, value⟩

/-- A value, or the flaws that prevent it, at least one. -/
inductive Checked (α : Type) where
  | sound (value : α)
  | flawed (first : Issue) (rest : List Issue)

namespace Checked

variable {α β : Type}

def ap (f : Checked (α → β)) (x : Checked α) : Checked β :=
  match f, x with
  | .sound f, .sound x => .sound (f x)
  | .sound _, .flawed i is => .flawed i is
  | .flawed i is, .sound _ => .flawed i is
  | .flawed i is, .flawed j js => .flawed i (is ++ j :: js)

def map (f : α → β) : Checked α → Checked β
  | .sound x => .sound (f x)
  | .flawed i is => .flawed i is

instance : Functor Checked where
  map := map

instance : Seq Checked where
  seq f x := ap f (x ())

/-- All issues, none for a sound value. -/
def issues : Checked α → List Issue
  | .sound _ => []
  | .flawed i is => i :: is

/-- A checked value together with further issues found beside it. -/
def alsoFlawed (x : Checked α) : List Issue → Checked α
  | [] => x
  | j :: js =>
    match x with
    | .sound _ => .flawed j js
    | .flawed i is => .flawed i (is ++ j :: js)

/-- The same issues, found inside the record of a given name. -/
def inside (name : String) : Checked α → Checked α
  | .sound x => .sound x
  | .flawed i is =>
    let move (i : Issue) := { i with place := name :: i.place }
    .flawed (move i) (is.map move)

theorem issues_ap (f : Checked (α → β)) (x : Checked α) :
    (f <*> x).issues = f.issues ++ x.issues := by
  cases f <;> cases x <;> simp [Seq.seq, ap, issues]

theorem issues_map (f : α → β) (x : Checked α) : (f <$> x).issues = x.issues := by
  cases x <;> rfl

theorem issues_alsoFlawed (x : Checked α) (more : List Issue) :
    (x.alsoFlawed more).issues = x.issues ++ more := by
  cases more <;> cases x <;> simp [alsoFlawed, issues]

/-- A checked value is sound exactly where no issue was found. -/
theorem issues_eq_nil_iff (x : Checked α) : x.issues = [] ↔ ∃ v, x = .sound v := by
  cases x <;> simp [issues]

end Checked

end ArtifactIdentity
