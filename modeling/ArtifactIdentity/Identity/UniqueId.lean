import ArtifactIdentity.Identity.Malformed

/-!
# Unique identifiers

An artifact's identifier is declared by its canonical text or as an identifier of its own kind. Braces,
prefixes and bare digits are refused. What is kept is the canonical text in lower case.
-/

namespace ArtifactIdentity.UniqueId

def ofLiteral (field : String) (literal : Literal) : Except Fault String :=
  match literal with
  | .uuid number => .ok (IdNumber.text number)
  | .text s =>
    match IdNumber.ofChars? s.toList with
    | some number => .ok (IdNumber.text number)
    | none => refuse field literal "expected canonical 8-4-4-4-12 hex form"
  | _ => refuse field literal "expected canonical 8-4-4-4-12 hex form"

end ArtifactIdentity.UniqueId
