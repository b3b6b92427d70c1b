import ArtifactIdentity.Block.Basic

/-!
# The interface of metadata blocks

The names under which the contract between stamping and inspection is published: its constants, the
specification of the block file, and the operations and records that it offers. Any other name is refused.
-/

namespace ArtifactIdentity.Block

/-- How the file of a block is named, which format it has and what it must hold. -/
structure Specification where
  fileName : String
  format : String
  requiredFieldsNote : String
deriving DecidableEq, Repr

/-- The specification of the one block that an artifact has. -/
def specification : Specification :=
  ⟨fileName, "json", "ModuleDescriptor fields keyed by alias, plus schemaVersion."⟩

/-- What a published name stands for. -/
inductive Export where
  | text (value : String)
  | number (value : Nat)
  | specification (value : Specification)
  | object (name : String)
deriving DecidableEq, Repr

def objectNames : List String :=
  ["MetadataBlockSpec", "ValidationMessage", "ValidationResult", "build_block", "dump_block",
    "load_descriptor", "validate_metadata_block", "write_block"]

def constants : List (String × Export) :=
  [("DESCRIPTOR_JSON", .text fileName), ("SCHEMA_VERSION_KEY", .text schemaVersionName),
    ("METADATA_SCHEMA_VERSION", .number schemaVersion),
    ("DESCRIPTOR_BLOCK", .specification specification)]

/-- What a name stands for, or the message that refuses it. -/
def resolve (name : String) : Except String Export :=
  match constants.lookup name with
  | some value => .ok value
  | none =>
    if objectNames.contains name then .ok (.object name)
    else .error ("module 'contract' has no attribute " ++ Text.quoted name)

end ArtifactIdentity.Block
