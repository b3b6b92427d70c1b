import ArtifactIdentity.Identity.Version
import ArtifactIdentity.Toml.Basic

/-!
# TOML numbers

Integers are decimal with an optional sign and no zero in front, or hexadecimal, octal or binary behind
`0x`, `0o` and `0b`. A number with a fraction or an exponent is a float. Between two digits there may be
an underscore. A decimal integer of more digits than are read as an integer is a fault of its own.
-/

namespace ArtifactIdentity.Toml

/-- Digits behind a digit, each perhaps after an underscore, and what follows them. -/
def spanMoreDigits (isDigit : Char → Bool) : List Char → List Char × List Char
  | [] => ([], [])
  | '_' :: c :: rest =>
    if isDigit c then
      let (digits, rest) := spanMoreDigits isDigit rest
      (c :: digits, rest)
    else ([], '_' :: c :: rest)
  | c :: rest =>
    if isDigit c then
      let (digits, rest) := spanMoreDigits isDigit rest
      (c :: digits, rest)
    else ([], c :: rest)

/-- The digits in front of a text without their underscores, and what follows them. -/
def spanDigits (isDigit : Char → Bool) : List Char → List Char × List Char
  | c :: rest =>
    if isDigit c then
      let (digits, rest) := spanMoreDigits isDigit rest
      (c :: digits, rest)
    else ([], c :: rest)
  | [] => ([], [])

def base? : Char → Option Nat
  | 'x' => some 16
  | 'o' => some 8
  | 'b' => some 2
  | _ => none

def isDigitOf (base : Nat) (c : Char) : Bool :=
  Text.isHexDigit c && Text.digitValue c < base

def scanBased : List Char → Option (Literal × List Char)
  | '0' :: letter :: rest =>
    match base? letter with
    | some base =>
      match spanDigits (isDigitOf base) rest with
      | ([], _) => none
      | (digits, rest) => some (.integer (Text.valueOf base digits), rest)
    | none => none
  | _ => none

def scanSign : List Char → Bool × List Char
  | '-' :: rest => (true, rest)
  | '+' :: rest => (false, rest)
  | cs => (false, cs)

def scanFraction : List Char → Option (List Char) × List Char
  | '.' :: rest =>
    match spanDigits Text.isDigit rest with
    | ([], _) => (none, '.' :: rest)
    | (digits, rest) => (some digits, rest)
  | cs => (none, cs)

/-- A power of ten, where there are digits for one. -/
def scanExponent : List Char → Option Int × List Char
  | e :: rest =>
    if e = 'e' || e = 'E' then
      let (negative, behind) := scanSign rest
      match spanDigits Text.isDigit behind with
      | ([], _) => (none, e :: rest)
      | (digits, rest) =>
        let n : Int := Text.valueOf 10 digits
        (some (if negative then -n else n), rest)
    else (none, e :: rest)
  | [] => (none, [])

/-- The digits before the point: a single zero, or digits of which the first is none. -/
def spanWhole : List Char → List Char × List Char
  | '0' :: rest => (['0'], rest)
  | cs => spanDigits Text.isDigit cs

/-- A decimal integer, if it has not too many digits. -/
def integerOf (negative : Bool) (digits : List Char) : Except Flaw Literal :=
  if Version.maxDigits < digits.length then .error (.digits (.reading digits.length))
  else
    let n : Int := Text.valueOf 10 digits
    .ok (.integer (if negative then -n else n))

def scanDecimal (cs : List Char) : Option (Scan Literal) :=
  let (negative, rest) := scanSign cs
  match spanWhole rest with
  | ([], _) => none
  | (whole, rest) =>
    let (fraction, rest) := scanFraction rest
    let (exponent, rest) := scanExponent rest
    some <|
      if fraction = none && exponent = none then (integerOf negative whole).map (·, rest)
      else
        .ok (.float (Binary64.ofParts negative whole (fraction.getD []) (exponent.getD 0)), rest)

/-- A float that has no digits, if the text begins with one. -/
def scanSpecial (cs : List Char) : Option (Literal × List Char) :=
  match scanSign cs with
  | (negative, 'i' :: 'n' :: 'f' :: rest) => some (.float (.infinity negative), rest)
  | (_, 'n' :: 'a' :: 'n' :: rest) => some (.float .nan, rest)
  | _ => none

end ArtifactIdentity.Toml
