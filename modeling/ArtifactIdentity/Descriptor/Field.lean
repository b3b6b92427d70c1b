import ArtifactIdentity.Literal.Basic

/-!
# The fields of a descriptor

A descriptor has fourteen fields. Each is known by a name in snake case and by a block name in camel case,
which is the same word where the name is a single word; both spellings are accepted wherever a field is
named.
-/

namespace ArtifactIdentity

/-- The fields in the order in which they are declared and checked. -/
inductive Field where
  | title
  | description
  | configurationTag
  | organization
  | productName
  | copyright
  | trademark
  | culture
  | uniqueId
  | assemblyVersion
  | fileVersion
  | interopVisible
  | complianceChecked
  | internalAccessGrant
deriving DecidableEq, Repr

namespace Field

def all : List Field :=
  [title, description, configurationTag, organization, productName, copyright, trademark, culture,
    uniqueId, assemblyVersion, fileVersion, interopVisible, complianceChecked, internalAccessGrant]

def name : Field → String
  | title => "title"
  | description => "description"
  | configurationTag => "configuration_tag"
  | organization => "organization"
  | productName => "product_name"
  | copyright => "copyright"
  | trademark => "trademark"
  | culture => "culture"
  | uniqueId => "unique_id"
  | assemblyVersion => "assembly_version"
  | fileVersion => "file_version"
  | interopVisible => "interop_visible"
  | complianceChecked => "compliance_checked"
  | internalAccessGrant => "internal_access_grant"

/-- The spelling used in a metadata block. -/
def blockName : Field → String
  | title => "title"
  | description => "description"
  | configurationTag => "configurationTag"
  | organization => "organization"
  | productName => "productName"
  | copyright => "copyright"
  | trademark => "trademark"
  | culture => "culture"
  | uniqueId => "uniqueId"
  | assemblyVersion => "assemblyVersion"
  | fileVersion => "fileVersion"
  | interopVisible => "interopVisible"
  | complianceChecked => "complianceChecked"
  | internalAccessGrant => "internalAccessGrant"

/-- Whether a word names a field, by either spelling. -/
def isSpelledBy (f : Field) (word : String) : Bool :=
  f.name = word || f.blockName = word

def ofSpelling? (word : String) : Option Field :=
  all.find? (·.isSpelledBy word)

/-- The value given for a field: the one under the block name before the one under the name, with the
spelling that was used. -/
def given? (f : Field) (entries : Entries) : Option (String × Literal) :=
  match entries.lookup f.blockName with
  | some value => some (f.blockName, value)
  | none => (entries.lookup f.name).map ((f.name, ·))

theorem mem_all (f : Field) : f ∈ all := by
  cases f <;> decide

/-- Both spellings of a field lead back to it, and no word names two fields. -/
theorem ofSpelling?_eq_some_iff {word : String} {f : Field} :
    ofSpelling? word = some f ↔ word = f.name ∨ word = f.blockName := by
  constructor
  · intro h
    have hf := List.find?_some h
    simp only [isSpelledBy, Bool.or_eq_true, decide_eq_true_eq] at hf
    rcases hf with h | h
    · exact Or.inl h.symm
    · exact Or.inr h.symm
  · rintro (rfl | rfl) <;> cases f <;> decide +kernel

end Field

end ArtifactIdentity
