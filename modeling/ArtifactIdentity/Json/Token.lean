import ArtifactIdentity.Json.Basic
import ArtifactIdentity.Text.Digits

/-!
# JSON tokens

The words of a JSON document: the six punctuation marks, and the values that hold no other value. White
space is the space, the tab and the two line breaks. A number has no zero in front and a digit on both
sides of its point; a string holds no bare control character, and an escaped surrogate stands only in a
pair. A number that no finite float reaches is no token.
-/

namespace ArtifactIdentity.Json

inductive Token where
  | beginObject
  | endObject
  | beginArray
  | endArray
  | colon
  | comma
  | string (value : String)
  | literal (value : Json)

def isSpace (c : Char) : Bool :=
  c = ' ' || c = '\t' || c = '\n' || c = '\r'

/-! ## Strings -/

def shortEscape? : Char → Option Char
  | '"' => some '"'
  | '\\' => some '\\'
  | '/' => some '/'
  | 'b' => some '\x08'
  | 'f' => some '\x0c'
  | 'n' => some '\n'
  | 'r' => some '\r'
  | 't' => some '\t'
  | _ => none

def unit? (a b c d : Char) : Option Nat :=
  if [a, b, c, d].all Text.isHexDigit then some (Text.valueOf 16 [a, b, c, d]) else none

/-- Whether a 16-bit unit is the first half of a surrogate pair. -/
def isHighSurrogate (n : Nat) : Bool :=
  0xD800 ≤ n && n ≤ 0xDBFF

/-- Whether a 16-bit unit is the second half of a surrogate pair. -/
def isLowSurrogate (n : Nat) : Bool :=
  0xDC00 ≤ n && n ≤ 0xDFFF

def ofSurrogates (high low : Nat) : Char :=
  Char.ofNat (0x10000 + (high - 0xD800) * 0x400 + (low - 0xDC00))

def consChar (c : Char) : Option (List Char × List Char) → Option (List Char × List Char)
  | some (cs, rest) => some (c :: cs, rest)
  | none => none

/-- The characters of a string up to its closing quote, and what follows the quote. -/
def scanString : List Char → Option (List Char × List Char)
  | [] => none
  | '"' :: rest => some ([], rest)
  | '\\' :: 'u' :: a :: b :: c :: d :: rest =>
    match unit? a b c d with
    | none => none
    | some n =>
      if isLowSurrogate n then none
      else if isHighSurrogate n then
        match rest with
        | '\\' :: 'u' :: e :: f :: g :: h :: rest =>
          match unit? e f g h with
          | none => none
          | some m => if isLowSurrogate m then consChar (ofSurrogates n m) (scanString rest) else none
        | _ => none
      else consChar (Char.ofNat n) (scanString rest)
  | '\\' :: e :: rest =>
    match shortEscape? e with
    | none => none
    | some c => consChar c (scanString rest)
  | c :: rest =>
    if c = '\\' || c.toNat < 0x20 then none else consChar c (scanString rest)

/-! ## Numbers -/

/-- The digits in front of a text, and what follows them. -/
def spanDigits (cs : List Char) : List Char × List Char :=
  (cs.takeWhile Text.isDigit, cs.dropWhile Text.isDigit)

/-- A point and at least one digit, if there is a point; none where no digit follows it. -/
def scanFraction : List Char → Option (Option (List Char) × List Char)
  | '.' :: rest =>
    let (digits, rest) := spanDigits rest
    if digits = [] then none else some (some digits, rest)
  | rest => some (none, rest)

/-- A power of ten with its sign, if there is one; none where no digit follows. -/
def scanExponent : List Char → Option (Option Int × List Char)
  | [] => some (none, [])
  | e :: rest =>
    if e = 'e' || e = 'E' then
      let (negative, rest) : Bool × List Char :=
        match rest with
        | '-' :: rest => (true, rest)
        | '+' :: rest => (false, rest)
        | rest => (false, rest)
      let (digits, rest) := spanDigits rest
      if digits = [] then none
      else
        let n : Int := Text.valueOf 10 digits
        some (some (if negative then -n else n), rest)
    else some (none, e :: rest)

/-- A numeral as a value: an integer where it has neither point nor exponent and fits 64 bits, else a
finite float. -/
def numberOf (negative : Bool) (whole : List Char) (fraction : Option (List Char))
    (exponent : Option Int) : Option Json :=
  let magnitude : Int := Text.valueOf 10 whole
  let n := if negative then -magnitude else magnitude
  if fraction = none && exponent = none && -0x8000000000000000 ≤ n && n < 0x10000000000000000 then
    some (.integer n)
  else
    let x := Binary64.ofParts negative whole (fraction.getD []) (exponent.getD 0)
    if x.isInfinite then none else some (.float x)

def scanUnsigned (negative : Bool) (cs : List Char) : Option (Json × List Char) :=
  let (whole, rest) := spanDigits cs
  if whole = [] || (whole.head? = some '0' && whole ≠ ['0']) then none
  else
    match scanFraction rest with
    | none => none
    | some (fraction, rest) =>
      match scanExponent rest with
      | none => none
      | some (exponent, rest) => (numberOf negative whole fraction exponent).map ((·, rest))

/-! ## Tokens -/

/-- The first token of a text that does not begin with white space, and what follows it. -/
def scanToken : List Char → Option (Token × List Char)
  | [] => none
  | '\x7b' :: rest => some (.beginObject, rest)
  | '\x7d' :: rest => some (.endObject, rest)
  | '[' :: rest => some (.beginArray, rest)
  | ']' :: rest => some (.endArray, rest)
  | ':' :: rest => some (.colon, rest)
  | ',' :: rest => some (.comma, rest)
  | '"' :: rest => (scanString rest).map fun (cs, rest) => (.string (String.ofList cs), rest)
  | 't' :: 'r' :: 'u' :: 'e' :: rest => some (.literal (.bool true), rest)
  | 'f' :: 'a' :: 'l' :: 's' :: 'e' :: rest => some (.literal (.bool false), rest)
  | 'n' :: 'u' :: 'l' :: 'l' :: rest => some (.literal .null, rest)
  | '-' :: rest => (scanUnsigned true rest).map fun (v, rest) => (.literal v, rest)
  | cs => (scanUnsigned false cs).map fun (v, rest) => (.literal v, rest)

end ArtifactIdentity.Json
