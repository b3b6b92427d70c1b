import ArtifactIdentity.Descriptor.Issue
import ArtifactIdentity.Descriptor.Field
import ArtifactIdentity.Identity.Counterpart
import ArtifactIdentity.Identity.UniqueId
import ArtifactIdentity.Identity.Version
import ArtifactIdentity.Text.Blank

/-!
# Which literals a field takes

A text field takes texts and bytes that are UTF-8. A flag takes flags, the numbers zero and one, and a
handful of words for yes and no. The fields that make up the identity have rules of their own.
-/

namespace ArtifactIdentity.Coercion

def textOfBytes (data : ByteArray) : Except Problem String :=
  match String.fromUTF8? data with
  | some s => .ok s
  | none => .error .notUnicode

def text : Literal → Except Problem String
  | .text s => .ok s
  | .bytes d | .buffer d => textOfBytes d
  | _ => .error .notText

/-- The words that stand for false, in lower case. -/
def noWords : List String :=
  ["0", "off", "f", "false", "n", "no"]

/-- The words that stand for true, in lower case. -/
def yesWords : List String :=
  ["1", "on", "t", "true", "y", "yes"]

/-- A word read as a flag, whatever the case of its ASCII letters. -/
def flagOfWord (s : String) : Except Problem Bool :=
  let word := String.ofList (s.toList.map Char.toLower)
  if noWords.contains word then .ok false
  else if yesWords.contains word then .ok true
  else .error .unclearFlag

/-- A whole number read as a flag. Only numbers of 64 bits are numbers here at all. -/
def flagOfInt (n : Int) : Except Problem Bool :=
  if n = 0 then .ok false
  else if n = 1 then .ok true
  else if -0x8000000000000000 ≤ n && n < 0x8000000000000000 then .error .unclearFlag
  else .error .notFlag

/-- A float read as a flag: the integer it is, strictly within 64 bits. -/
def flagOfFloat (x : Binary64) : Except Problem Bool :=
  match x.toInt? with
  | some n => if n = -0x8000000000000000 then .error .notFlag else flagOfInt n
  | none => .error .notFlag

def flag : Literal → Except Problem Bool
  | .flag b => .ok b
  | .integer n => flagOfInt n
  | .float x => flagOfFloat x
  | .text s => flagOfWord s
  | .bytes d =>
    match String.fromUTF8? d with
    | some s => flagOfWord s
    | none => .error .unclearFlag
  | _ => .error .notFlag

def ruled {α : Type} (result : Except Fault α) : Except Problem α :=
  match result with
  | .ok a => .ok a
  | .error fault => .error (.refused fault)

def shownText (f : Field) (literal : Literal) : Except Problem String :=
  match literal with
  | .text s =>
    if Text.isBlankText s.toList then ruled (refuse f.name literal "must be non-empty") else .ok s
  | _ => ruled (refuse f.name literal "must be non-empty")

def uniqueId (literal : Literal) : Except Problem String :=
  ruled (UniqueId.ofLiteral Field.uniqueId.name literal)

def version (f : Field) (literal : Literal) : Except Problem Version :=
  ruled (Version.ofLiteral f.name literal)

/-- The name that internal access is granted to, if any. -/
def grant (literal : Literal) : Except Problem (Option String) :=
  match literal with
  | .absent => .ok none
  | _ => ruled ((Counterpart.ofLiteral Field.internalAccessGrant.name literal).map some)

end ArtifactIdentity.Coercion
