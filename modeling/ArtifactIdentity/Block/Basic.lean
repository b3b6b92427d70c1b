import ArtifactIdentity.Descriptor.Basic
import ArtifactIdentity.Json.Writer

/-!
# Metadata blocks

A descriptor is stamped into an artifact as a metadata block: one JSON object with a member for each field
under its block name and one for the version of the schema. The members stand in the order of their names,
one on a line, and a line break ends the block, so that equal descriptors have equal blocks byte for byte.
-/

namespace ArtifactIdentity

/-- A fact as a block holds it. Versions are texts there. -/
inductive Fact where
  | none
  | flag (value : Bool)
  | number (value : Nat)
  | text (value : String)
deriving DecidableEq, Repr

def Fact.chars : Fact → List Char
  | .none => Json.nullChars
  | .flag b => Json.flagChars b
  | .number n => Text.decimal n
  | .text s => Json.stringChars s.toList

def Descriptor.fact (d : Descriptor) : Field → Fact
  | .title => .text d.title
  | .description => .text d.description
  | .configurationTag => .text d.configurationTag
  | .organization => .text d.organization
  | .productName => .text d.productName
  | .copyright => .text d.copyright
  | .trademark => .text d.trademark
  | .culture => .text d.culture
  | .uniqueId => .text d.uniqueId
  | .assemblyVersion => .text d.assemblyVersion.text
  | .fileVersion => .text d.fileVersion.text
  | .interopVisible => .flag d.interopVisible
  | .complianceChecked => .flag d.complianceChecked
  | .internalAccessGrant => (d.internalAccessGrant.map Fact.text).getD .none

namespace Block

/-- The name of the file that holds the block of an artifact. -/
def fileName : String :=
  "descriptor.json"

/-- The name of the member that holds the version of the schema. -/
def schemaVersionName : String :=
  "schemaVersion"

def schemaVersion : Nat :=
  1

/-- What a member of a block is about. -/
inductive Member where
  | schemaVersion
  | field (f : Field)
deriving DecidableEq, Repr

def Member.name : Member → String
  | .schemaVersion => schemaVersionName
  | .field f => f.blockName

/-- The members of a block in the order of their names. -/
def members : List Member :=
  [.field .assemblyVersion, .field .complianceChecked, .field .configurationTag, .field .copyright,
    .field .culture, .field .description, .field .fileVersion, .field .internalAccessGrant,
    .field .interopVisible, .field .organization, .field .productName, .schemaVersion, .field .title,
    .field .trademark, .field .uniqueId]

def factOf (d : Descriptor) : Member → Fact
  | .schemaVersion => .number schemaVersion
  | .field f => d.fact f

/-- One member on its line. -/
def memberChars (d : Descriptor) (m : Member) : List Char :=
  ' ' :: ' ' :: (Json.stringChars m.name.toList ++ ':' :: ' ' :: (factOf d m).chars)

/-- Lines with a comma at the end of each but the last. -/
def lines : List (List Char) → List Char
  | [] => []
  | [line] => line ++ ['\n']
  | line :: next :: rest => line ++ ',' :: '\n' :: lines (next :: rest)

/-- The JSON object of a descriptor, without the line break that ends a block. -/
def objectChars (d : Descriptor) : List Char :=
  '\x7b' :: '\n' :: (lines (members.map (memberChars d)) ++ ['\x7d'])

def text (d : Descriptor) : String :=
  String.ofList (objectChars d ++ ['\n'])

/-- The bytes of the block of a descriptor. -/
def bytes (d : Descriptor) : ByteArray :=
  (text d).toUTF8

/-- The names of the members ascend. -/
theorem members_pairwise_lt : (members.map Member.name).Pairwise (· < ·) := by
  decide +kernel

theorem field_mem_members (f : Field) : Member.field f ∈ members := by
  cases f <;> decide

end Block

end ArtifactIdentity
