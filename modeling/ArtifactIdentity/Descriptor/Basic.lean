import ArtifactIdentity.Descriptor.Field
import ArtifactIdentity.Identity.Version

/-!
# Descriptors

The record of the facts of one build artifact: what it is called and who made it, its identifier and
versions, what it is visible to. A descriptor is read by the names of its fields and never changed.
-/

namespace ArtifactIdentity

/-- The facts of one artifact. An empty culture means that the artifact is neutral; a grant names the
one artifact that may see internal members. -/
structure Descriptor where
  title : String
  description : String
  configurationTag : String
  organization : String
  productName : String
  copyright : String
  trademark : String
  culture : String
  uniqueId : String
  assemblyVersion : Version
  fileVersion : Version
  interopVisible : Bool
  complianceChecked : Bool
  internalAccessGrant : Option String
deriving DecidableEq, Repr

/-- Why a field cannot be read or written. -/
inductive QueryError where
  | unknownField (key : Literal)
  /-- The key could change and so can be no key. -/
  | changeableKey (kind : String)

def QueryError.message : QueryError → String
  | .unknownField key => "Unknown descriptor field: " ++ key.written
  | .changeableKey kind => "unhashable type: '" ++ kind ++ "'"

namespace Descriptor

def get (d : Descriptor) : Field → Literal
  | .title => .text d.title
  | .description => .text d.description
  | .configurationTag => .text d.configurationTag
  | .organization => .text d.organization
  | .productName => .text d.productName
  | .copyright => .text d.copyright
  | .trademark => .text d.trademark
  | .culture => .text d.culture
  | .uniqueId => .text d.uniqueId
  | .assemblyVersion => d.assemblyVersion.toLiteral
  | .fileVersion => d.fileVersion.toLiteral
  | .interopVisible => .flag d.interopVisible
  | .complianceChecked => .flag d.complianceChecked
  | .internalAccessGrant => (d.internalAccessGrant.map Literal.text).getD .absent

/-- The value of the field that a key names by either spelling. -/
def query (d : Descriptor) (key : Literal) : Except QueryError Literal :=
  match key with
  | .text word =>
    match Field.ofSpelling? word with
    | some f => .ok (d.get f)
    | none => .error (.unknownField key)
  | _ =>
    match key.changeable? with
    | some kind => .error (.changeableKey kind)
    | none => .error (.unknownField key)

/-- The values of all fields under their names, in order. -/
def facts (d : Descriptor) : Entries :=
  Field.all.map fun f => (f.name, d.get f)

def isCultureNeutral (d : Descriptor) : Bool :=
  d.culture = ""

/-- Whether a requester may see internal members: only the very artifact that the grant names. -/
def canAccessInternals (d : Descriptor) (requester : Literal) : Bool :=
  match d.internalAccessGrant, requester with
  | some name, .text r => r = name
  | _, _ => false

end Descriptor

end ArtifactIdentity
