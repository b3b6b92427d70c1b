import ArtifactIdentity.Descriptor.Builder

/-!
# Declaring in one step

A descriptor is declared from keywords alone. Beside the fields they may say that tests are excluded and
name the counterpart that internal access is granted to, under either spelling; where both spellings of
the grant are given, the block name wins.
-/

namespace ArtifactIdentity

/-- The records of a piece of work and its outcome. -/
structure Outcome (ε α : Type) where
  log : Log
  result : Except ε α

namespace Declaration

/-- The keyword that says whether tests are excluded. -/
def excludeTestsKeyword : String :=
  "exclude_tests"

/-- The keywords of a declaration that are no fields of the builder. -/
def ownKeywords : List String :=
  [excludeTestsKeyword, Field.internalAccessGrant.name, Field.internalAccessGrant.blockName]

def excludesTests (keywords : Entries) : Bool :=
  ((keywords.lookup excludeTestsKeyword).map Literal.truthy).getD false

/-- The name to grant internal access to, absent where none is given. -/
def grantOf (keywords : Entries) : Literal :=
  match keywords.lookup Field.internalAccessGrant.blockName with
  | some name => name
  | none => (keywords.lookup Field.internalAccessGrant.name).getD .absent

def fieldsOf (keywords : Entries) : Entries :=
  keywords.filter fun e => !ownKeywords.contains e.1

/-- A grant, if a name is given, and then the declaration, on a fresh builder. -/
def onBuilder (excludeTests : Bool) (grant : Literal) (fields : Entries) :
    Outcome BuildError Descriptor :=
  let fresh : Builder := { excludeTests := excludeTests }
  if grant.isAbsent then
    let reply := fresh.declare fields
    ⟨reply.log, reply.result⟩
  else
    let granted := fresh.grantAccess grant
    match granted.result with
    | .error e => ⟨granted.log, .error e⟩
    | .ok () =>
      let reply := granted.builder.declare fields
      ⟨granted.log ++ reply.log, reply.result⟩

end Declaration

def declare (keywords : Entries) : Outcome BuildError Descriptor :=
  Declaration.onBuilder (Declaration.excludesTests keywords) (Declaration.grantOf keywords)
    (Declaration.fieldsOf keywords)

end ArtifactIdentity
