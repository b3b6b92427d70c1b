import ArtifactIdentity.Descriptor.Basic
import ArtifactIdentity.Descriptor.Coercion

/-!
# Reading a descriptor from a table

A table gives the facts of a descriptor under the names or block names of its fields. Every field is
checked, in order, and after the fields every key that no field has used; the issues stand in that order.
Where a single fault is wanted, the first issue is surfaced as a malformed identity.
-/

namespace ArtifactIdentity

def Field.required {α : Type} (f : Field) (entries : Entries) (accept : Literal → Except Problem α) :
    Checked α :=
  match f.given? entries with
  | none => .flawed ⟨[f.blockName], .missing, .table entries⟩ []
  | some (spelling, literal) =>
    match accept literal with
    | .ok value => .sound value
    | .error problem => .flawed ⟨[spelling], problem, literal⟩ []

/-- A field with a value of its own where none is given. -/
def Field.optional {α : Type} (f : Field) (entries : Entries) (default : α)
    (accept : Literal → Except Problem α) : Checked α :=
  match f.given? entries with
  | none => .sound default
  | some _ => f.required entries accept

namespace Descriptor

/-- Whether a key of the table is the spelling under which some field has found its value. -/
def usesKey (entries : Entries) (key : String) : Bool :=
  Field.all.any fun f => (f.given? entries).map Prod.fst = some key

def extraIssues (entries : Entries) : List Issue :=
  (entries.filter fun e => !usesKey entries e.1).map fun e => ⟨[e.1], .extra, e.2⟩

/-- The fields of a table, without regard to further keys. -/
def checkFields (entries : Entries) : Checked Descriptor :=
  Descriptor.mk
    <$> Field.title.required entries (Coercion.shownText .title)
    <*> Field.description.optional entries "" Coercion.text
    <*> Field.configurationTag.optional entries "" Coercion.text
    <*> Field.organization.required entries (Coercion.shownText .organization)
    <*> Field.productName.required entries (Coercion.shownText .productName)
    <*> Field.copyright.optional entries "" Coercion.text
    <*> Field.trademark.optional entries "" Coercion.text
    <*> Field.culture.optional entries "" Coercion.text
    <*> Field.uniqueId.required entries Coercion.uniqueId
    <*> Field.assemblyVersion.required entries (Coercion.version .assemblyVersion)
    <*> Field.fileVersion.required entries (Coercion.version .fileVersion)
    <*> Field.interopVisible.optional entries false Coercion.flag
    <*> Field.complianceChecked.optional entries false Coercion.flag
    <*> Field.internalAccessGrant.optional entries none Coercion.grant

def ofEntries (entries : Entries) : Checked Descriptor :=
  (checkFields entries).alsoFlawed (extraIssues entries)

def ofLiteral (literal : Literal) : Checked Descriptor :=
  match literal with
  | .table entries => ofEntries entries
  | _ => .flawed ⟨[], .notRecord "ModuleDescriptor", literal⟩ []

end Descriptor

/-- The name of the place of an issue: that of the field which the place spells, if it spells one. -/
def Issue.fieldName (i : Issue) : String :=
  let place := if i.place = [] then "descriptor" else i.placeText
  ((Field.ofSpelling? place).map Field.name).getD place

/-- The literal that an issue is about; a missing field has none. -/
def Issue.subject (i : Issue) : Literal :=
  match i.problem with
  | .missing => .absent
  | _ => i.literal

/-- An issue as a single fault. A malformed identity found by a rule stands as it is; any other problem
becomes the reason of one. -/
def Issue.surface (i : Issue) : Fault :=
  match i.problem with
  | .refused (.malformed m) => .malformed m
  | problem => Fault.of i.fieldName i.subject problem.message

def Checked.surfaced {α : Type} : Checked α → Except Fault α
  | .sound value => .ok value
  | .flawed first _ => .error first.surface

end ArtifactIdentity
