import ArtifactIdentity.Block.Basic
import ArtifactIdentity.Descriptor.Reading
import ArtifactIdentity.Files.Machine
import ArtifactIdentity.Json.Reader

/-!
# Inspecting a metadata block

The block of a directory is read in two ways. Validation never fails: it gives the findings, at most one,
as an error or as a warning. Loading gives the descriptor or says why there is none. Both take a block in
any spelling of its members and with the version of the schema anywhere; only validation looks at that
version.
-/

namespace ArtifactIdentity

/-- What validation has to say about a directory. -/
inductive Finding where
  | noDirectory
  | notADirectory
  | noBlock
  | notJson
  | notObject
  | refused (fault : Fault)
  | schemaMismatch (version : Literal)
  | noSchemaVersion

namespace Finding

/-- What a finding is about: the directory itself or the block in it. -/
def isAboutDirectory : Finding → Bool
  | .noDirectory | .notADirectory => true
  | _ => false

def artifact (f : Finding) : String :=
  if f.isAboutDirectory then "artifacts_dir" else "descriptor"

def path (f : Finding) (directory : Pathname) : Pathname :=
  if f.isAboutDirectory then directory else directory.child Block.fileName

/-- The sentence for a finding; `detail` says why a block is no JSON. -/
def text (detail : String) : Finding → String
  | .noDirectory => "Artifacts directory does not exist."
  | .notADirectory => "Artifacts path is not a directory."
  | .noBlock => "Required metadata block is missing."
  | .notJson => "Invalid JSON: " ++ detail ++ "."
  | .notObject => "Expected JSON object for " ++ Block.fileName ++ "."
  | .refused fault => "Schema validation failed: " ++ fault.message ++ "."
  | .schemaMismatch version =>
    "Schema version mismatch: expected " ++ Text.decimalText Block.schemaVersion ++ ", got " ++
      version.plain ++ "."
  | .noSchemaVersion =>
    "Missing " ++ Block.schemaVersionName ++ "; defaulted to " ++
      Text.decimalText Block.schemaVersion ++ "."

end Finding

/-- The findings of a validation. -/
structure Inspection where
  errors : List Finding := []
  warnings : List Finding := []

def Inspection.ok (i : Inspection) : Bool :=
  i.errors.isEmpty

inductive LoadError where
  | noBlock (file : Pathname)
  | notJson
  | notObject (file : Pathname)
  | refused (fault : Fault)

/-- The message of a failed loading; `detail` says why a block is no JSON. -/
def LoadError.text (detail : String) : LoadError → String
  | .noBlock file => "Metadata block does not exist: " ++ file.text
  | .notJson => detail
  | .notObject file => "Expected JSON object in " ++ file.text
  | .refused fault => fault.message

namespace Block

/-- What the messages say of a block that is no JSON. -/
def jsonDetail : String :=
  "the document is malformed"

def factsOf (members : List (String × Json)) : Entries :=
  Json.entriesOf (members.filter (·.1 ≠ schemaVersionName))

/-- The finding about the version of the schema, if there is any. -/
def schemaFinding? (members : List (String × Json)) : Option Finding :=
  match members.lookup schemaVersionName with
  | none => some .noSchemaVersion
  | some version =>
    if version.toLiteral.isNumber schemaVersion then none
    else some (.schemaMismatch version.toLiteral)

/-- The findings about a JSON value that is to be a block. -/
def inspect (strict : Bool) : Json → Inspection
  | .object members =>
    match (Descriptor.ofEntries (factsOf members)).surfaced with
    | .error fault => { errors := [.refused fault] }
    | .ok _ =>
      match schemaFinding? members with
      | none => {}
      | some .noSchemaVersion =>
        if strict then { errors := [.noSchemaVersion] } else { warnings := [.noSchemaVersion] }
      | some finding => { errors := [finding] }
  | _ => { errors := [.notObject] }

end Block

namespace Machine

def validate (m : Machine) (directory : Pathname) (strict : Bool) : Inspection :=
  let file := directory.child Block.fileName
  if !m.isPresent directory then { errors := [.noDirectory] }
  else if !m.isDirectory directory then { errors := [.notADirectory] }
  else if !m.isPresent file then { errors := [.noBlock] }
  else
    match m.read file with
    | .error _ => { errors := [.notJson] }
    | .ok data =>
      match Json.ofBytes? data with
      | none => { errors := [.notJson] }
      | some json => Block.inspect strict json

def load (m : Machine) (directory : Pathname) : Except LoadError Descriptor :=
  let file := directory.child Block.fileName
  if !m.isFile file then .error (.noBlock file)
  else
    match m.read file with
    | .error _ => .error (.noBlock file)
    | .ok data =>
      match Json.ofBytes? data with
      | none => .error .notJson
      | some (.object members) =>
        match (Descriptor.ofEntries (Block.factsOf members)).surfaced with
        | .ok d => .ok d
        | .error fault => .error (.refused fault)
      | some _ => .error (.notObject file)

end Machine

end ArtifactIdentity
