import ArtifactIdentity.Descriptor.Reading
import ArtifactIdentity.Log

/-!
# Builders

A builder collects the grant of internal access and then declares one descriptor, after which it is
sealed: its descriptor stays as it is and every further call fails. A call that fails changes nothing.
A builder made for a build without tests skips every grant.
-/

namespace ArtifactIdentity

inductive Phase where
  | undeclared
  | declared
deriving DecidableEq, Repr

def Phase.name : Phase → String
  | .undeclared => "undeclared"
  | .declared => "declared"

inductive BuildError where
  /-- A literal forms no valid field, or cannot even be shown. -/
  | fault (fault : Fault)
  /-- A keyword names no field. -/
  | unknownField (keyword : String)
  /-- Two keywords name one field. -/
  | repeatedField (f : Field) (keyword : String)
  /-- The grant is given like any other field. -/
  | grantAsField
  /-- The keyword that stands for the builder itself. -/
  | givesBuilder
  /-- Internal access is already granted to another artifact. -/
  | conflict (held asked : String)
  /-- The descriptor is already declared. -/
  | declared

/-- The keyword under which a builder receives itself. -/
def builderKeyword : String :=
  "self"

def BuildError.message : BuildError → String
  | .fault cause => cause.message
  | .unknownField keyword => (QueryError.unknownField (.text keyword)).message
  | .repeatedField f keyword =>
    "field " ++ Text.quoted f.name ++ " given more than once (as " ++ Text.quoted keyword ++ ")"
  | .grantAsField => "use grant_internal_access() to attach an internal access grant"
  | .givesBuilder =>
    "DescriptorBuilder.declare() got multiple values for argument " ++ Text.quoted builderKeyword
  | .conflict held asked =>
    "Internal access already granted to " ++ Text.quoted held ++ "; cannot also grant " ++
      Text.quoted asked
  | .declared => "Descriptor already declared; rebuild to produce a new one"

/-- A builder: the name that access is granted to, the descriptor once it is declared, and the phase
that tells whether it is. -/
structure Builder where
  excludeTests : Bool
  grant : Option String := none
  descriptor : Option Descriptor := none
  phase : Phase := .undeclared
deriving DecidableEq

/-- What a call leaves: the builder after it, the records it made, and its result. -/
structure Reply (α : Type) where
  builder : Builder
  log : Log
  result : Except BuildError α

namespace Builder

/-- The part of the program that speaks in the records of a builder. -/
def speaker : String :=
  "descriptor.declare"

/-- A call that fails leaves the builder as it is and makes no record. -/
def failed {α : Type} (b : Builder) (e : BuildError) : Reply α :=
  ⟨b, [], .error e⟩

def skippedRecord (name : Literal) : LogRecord :=
  ⟨.info, speaker, "Tests excluded; skipping internal access grant to " ++ name.plain⟩

def declaredRecord (d : Descriptor) : LogRecord :=
  ⟨.debug, speaker,
    "Declared " ++ d.title ++ " " ++ d.assemblyVersion.text ++ " (grant: " ++
      d.internalAccessGrant.getD "None" ++ ")"⟩

/-- Internal access for one named artifact. Granting it to the same name again changes nothing. -/
def grantAccess (b : Builder) (name : Literal) : Reply Unit :=
  if b.phase = .declared then b.failed .declared
  else if b.excludeTests then ⟨b, [skippedRecord name], .ok ()⟩
  else
    match Counterpart.ofLiteral Field.internalAccessGrant.name name with
    | .error fault => b.failed (.fault fault)
    | .ok asked =>
      match b.grant with
      | none => ⟨{ b with grant := some asked }, [], .ok ()⟩
      | some held =>
        if held = asked then ⟨b, [], .ok ()⟩ else b.failed (.conflict held asked)

/-- Keywords as fields: every keyword names a field, and none a field named before. -/
def namedFields : (seen : List Field) → Entries → Except BuildError (List (Field × Literal))
  | _, [] => .ok []
  | seen, (keyword, literal) :: rest =>
    match Field.ofSpelling? keyword with
    | none => .error (.unknownField keyword)
    | some f =>
      if seen.contains f then .error (.repeatedField f keyword)
      else (namedFields (f :: seen) rest).map ((f, literal) :: ·)

/-- The table that a declaration is read from: the given fields under their names, and the grant. -/
def tableFor (b : Builder) (fields : List (Field × Literal)) : Entries :=
  fields.map (fun p => (p.1.name, p.2)) ++
    [(Field.internalAccessGrant.name, (b.grant.map Literal.text).getD .absent)]

/-- The descriptor that a declaration would produce. -/
def declaration (b : Builder) (keywords : Entries) : Except BuildError Descriptor :=
  if keywords.any (·.1 = builderKeyword) then .error .givesBuilder
  else if b.phase = .declared then .error .declared
  else
    match namedFields [] keywords with
    | .error e => .error e
    | .ok fields =>
      if fields.any (·.1 = .internalAccessGrant) then .error .grantAsField
      else
        match (Descriptor.ofEntries (b.tableFor fields)).surfaced with
        | .error fault => .error (.fault fault)
        | .ok d => .ok d

/-- The fields are checked and the descriptor is sealed. -/
def declare (b : Builder) (keywords : Entries) : Reply Descriptor :=
  match b.declaration keywords with
  | .error e => b.failed e
  | .ok d => ⟨{ b with descriptor := some d, phase := .declared }, [declaredRecord d], .ok d⟩

inductive Call where
  | grant (name : Literal)
  | declare (keywords : Entries)

/-- A call carried out; only a declaration has a descriptor to return. -/
def call (b : Builder) : Call → Reply (Option Descriptor)
  | .grant name =>
    let reply := b.grantAccess name
    ⟨reply.builder, reply.log, reply.result.map fun _ => none⟩
  | .declare keywords =>
    let reply := b.declare keywords
    ⟨reply.builder, reply.log, reply.result.map some⟩

/-- The builder after a row of calls, failing ones included. -/
def run (b : Builder) (calls : List Call) : Builder :=
  calls.foldl (fun b c => (b.call c).builder) b

theorem run_append (b : Builder) (first second : List Call) :
    b.run (first ++ second) = (b.run first).run second := by
  simp [run, List.foldl_append]

end Builder

end ArtifactIdentity
