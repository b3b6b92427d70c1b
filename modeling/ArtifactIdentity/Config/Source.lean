import ArtifactIdentity.Config.Setting

/-!
# The literals of a configuration

What a configuration says about the descriptor of an artifact. The literals of the identity stay as they
are written, since they are checked when the descriptor is declared; texts and flags are read here. The
fields are known by their names alone.
-/

namespace ArtifactIdentity

/-- The literals of a descriptor as a configuration gives them; one that is not given is absent. -/
structure Source where
  title : Literal
  description : String
  configurationTag : String
  organization : Literal
  productName : Literal
  copyright : String
  trademark : String
  culture : String
  uniqueId : Literal
  assemblyVersion : Literal
  fileVersion : Literal
  interopVisible : Bool
  complianceChecked : Bool
  internalAccessGrant : Option String

namespace Source

def asWritten (literal : Literal) : Except Problem Literal :=
  .ok literal

/-- The name of the artifact that internal access is granted to. -/
def grant (literal : Literal) : Except Problem (Option String) :=
  match literal with
  | .absent => .ok none
  | _ => (Coercion.text literal).map some

def rawSetting (f : Field) (entries : Entries) : Checked Literal :=
  setting f.name entries .absent asWritten

/-- A text that is empty where it is not given. -/
def textSetting (f : Field) (entries : Entries) : Checked String :=
  setting f.name entries "" Coercion.text

/-- A flag that is false where it is not given. -/
def flagSetting (f : Field) (entries : Entries) : Checked Bool :=
  setting f.name entries false Coercion.flag

def ofEntries (entries : Entries) : Checked Source :=
  (Source.mk
    <$> rawSetting .title entries
    <*> textSetting .description entries
    <*> textSetting .configurationTag entries
    <*> rawSetting .organization entries
    <*> rawSetting .productName entries
    <*> textSetting .copyright entries
    <*> textSetting .trademark entries
    <*> textSetting .culture entries
    <*> rawSetting .uniqueId entries
    <*> rawSetting .assemblyVersion entries
    <*> rawSetting .fileVersion entries
    <*> flagSetting .interopVisible entries
    <*> flagSetting .complianceChecked entries
    <*> setting Field.internalAccessGrant.name entries none grant).alsoFlawed
      (strangeKeys (Field.all.map Field.name) entries)

def get (s : Source) : Field → Literal
  | .title => s.title
  | .description => .text s.description
  | .configurationTag => .text s.configurationTag
  | .organization => s.organization
  | .productName => s.productName
  | .copyright => .text s.copyright
  | .trademark => .text s.trademark
  | .culture => .text s.culture
  | .uniqueId => s.uniqueId
  | .assemblyVersion => s.assemblyVersion
  | .fileVersion => s.fileVersion
  | .interopVisible => .flag s.interopVisible
  | .complianceChecked => .flag s.complianceChecked
  | .internalAccessGrant => (s.internalAccessGrant.map Literal.text).getD .absent

/-- All literals under the names of their fields, the absent ones too. -/
def literals (s : Source) : Entries :=
  Field.all.map fun f => (f.name, s.get f)

/-- The literals to declare: all that are given, without the grant. -/
def declaredFields (s : Source) : Entries :=
  ((Field.all.filter (· ≠ .internalAccessGrant)).map fun f => (f.name, s.get f)).filter
    fun e => !e.2.isAbsent

end Source

end ArtifactIdentity
