import ArtifactIdentity.Identity.Malformed

/-!
# TOML: gaps and comments

What may stand between the words of a TOML document: spaces and tabs on a line, and between the items of
an array line breaks and comments as well. A document that breaks a rule is malformed, with no regard to
where; two faults are told apart from that, bytes that are no UTF-8 and a decimal integer of too many
digits.
-/

namespace ArtifactIdentity.Toml

inductive Flaw where
  | malformed
  | notUnicode
  | digits (limit : DigitLimit)
deriving DecidableEq

/-- What was read from the front of a text, and the rest of the text. -/
abbrev Scan (α : Type) : Type := Except Flaw (α × List Char)

/-- The rules of the language are broken. -/
def malformed {α : Type} : Except Flaw α :=
  .error .malformed

/-- A space or a tab. -/
def isGap (c : Char) : Bool :=
  c = ' ' || c = '\t'

def skipGap (cs : List Char) : List Char :=
  cs.dropWhile isGap

/-- A control character of ASCII. -/
def isControl (c : Char) : Bool :=
  c.toNat < 0x20 || c.toNat = 0x7F

/-- A character that stands neither in a comment nor in a string of one line. -/
def isForbidden (c : Char) : Bool :=
  isControl c && c ≠ '\t'

/-- A character that stands in no string of several lines. -/
def isForbiddenInLines (c : Char) : Bool :=
  isForbidden c && c ≠ '\n'

/-- The text behind a comment, if there is one: its line break or nothing. -/
def skipComment : List Char → Except Flaw (List Char)
  | '#' :: rest =>
    if (rest.takeWhile (· ≠ '\n')).any isForbidden then malformed
    else .ok (rest.dropWhile (· ≠ '\n'))
  | cs => .ok cs

/-- The text behind gaps, line breaks and comments; `comment` says that the text begins inside one. -/
def skipLines (comment : Bool) : List Char → Except Flaw (List Char)
  | [] => .ok []
  | '\n' :: rest => skipLines false rest
  | c :: rest =>
    if comment then if isForbidden c then malformed else skipLines true rest
    else if isGap c then skipLines false rest
    else if c = '#' then skipLines true rest
    else .ok (c :: rest)

def consChar (c : Char) (scan : Scan (List Char)) : Scan (List Char) :=
  scan.map fun (cs, rest) => (c :: cs, rest)

end ArtifactIdentity.Toml
