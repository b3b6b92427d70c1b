import ArtifactIdentity.Text.Digits
import ArtifactIdentity.Text.Split

/-!
# The text of a 128-bit identifier

An identifier is a number below 2^128. Its text is the 32 hexadecimal digits of that number, leading
zeros kept, in groups of 8, 4, 4, 4 and 12 with a hyphen between two groups. Printing uses lower case;
reading takes either.
-/

namespace ArtifactIdentity.IdNumber

open Text

def groups : List Nat :=
  [8, 4, 4, 4, 12]

def cut : List Nat → List Char → List (List Char)
  | [], _ => []
  | n :: ns, cs => cs.take n :: cut ns (cs.drop n)

/-- The canonical text of an identifier, in lower case. -/
def chars (number : Nat) : List Char :=
  joinWith '-' (cut groups (hexPadded 32 number))

/-- The canonical text of an identifier as a string. -/
def text (number : Nat) : String :=
  String.ofList (chars number)

/-- The canonical form: five groups of hexadecimal digits of the right lengths and nothing else. -/
def isCanonical (cs : List Char) : Bool :=
  let pieces := splitAt '-' cs
  pieces.map List.length = groups && pieces.all (·.all isHexDigit)

/-- The number that a text in canonical form denotes. -/
def number (cs : List Char) : Nat :=
  valueOf 16 (cs.filter (· ≠ '-'))

/-- The number of a text, if it is in canonical form. -/
def ofChars? (cs : List Char) : Option Nat :=
  if isCanonical cs then some (number cs) else none

example : (ofChars? "97DB45A8-F922-456A-A819-7B3C6E5E03BA".toList).map text =
    some "97db45a8-f922-456a-a819-7b3c6e5e03ba" := by decide +kernel

end ArtifactIdentity.IdNumber
