import ArtifactIdentity.Identity.Malformed
import ArtifactIdentity.Text.Blank

/-!
# Counterpart names

Internal access is granted to one counterpart artifact by its exact name. A name that could stand for
several artifacts, because it holds a wildcard, a separator or white space, is refused.
-/

namespace ArtifactIdentity.Counterpart

/-- A character that no name of a single artifact holds. -/
def isForbidden (c : Char) : Bool :=
  c = '*' || c = '?' || c = ',' || c = ';' || Text.isBlank c

def ofLiteral (field : String) (literal : Literal) : Except Fault String :=
  match literal with
  | .text s =>
    if s = "" then refuse field literal "counterpart name must be non-empty"
    else if s.toList.any isForbidden then
      refuse field literal "counterpart name must name exactly one artifact"
    else .ok s
  | _ => refuse field literal "counterpart name must be non-empty"

end ArtifactIdentity.Counterpart
