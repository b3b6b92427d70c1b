import ArtifactIdentity.Text.Digits

/-!
# Binary floating point numbers

The values of the 64-bit binary format as exact numbers: a sign, a whole significand below 2^53 and a
power of two. A decimal numeral is read as the value nearest to it, of two equally near ones the one
with the even significand; all arithmetic is on natural numbers.
-/

namespace ArtifactIdentity

/-- A value of the 64-bit binary format. A finite value is `significand * 2 ^ exponent`, with its
sign; the significand is below 2^53, and from 2^52 on unless the exponent is -1074. -/
inductive Binary64 where
  | nan
  | infinity (negative : Bool)
  | finite (negative : Bool) (significand : Nat) (exponent : Int)
deriving DecidableEq, Repr

namespace Binary64

def zero (negative : Bool) : Binary64 :=
  .finite negative 0 (-1074)

/-- The whole number nearest to a quotient; of two, the even one. -/
def roundHalfEven (num den : Nat) : Nat :=
  let q := num / den
  let r := num % den
  if 2 * r < den then q
  else if den < 2 * r then q + 1
  else if q % 2 = 0 then q else q + 1

/-- Significands are below this number, 2^53. -/
def significandEnd : Nat :=
  0x20000000000000

/-- `num / den` divided by a power of two, as a quotient of natural numbers again. -/
def scaled (num den : Nat) (exponent : Int) : Nat × Nat :=
  match exponent with
  | .ofNat k => (num, den * Nat.pow 2 k)
  | .negSucc k => (num * Nat.pow 2 (k + 1), den)

/-- The exponent at which a quotient has a significand of 53 bits, or the least exponent there is. -/
def exponentFor (num den : Nat) : Int :=
  let low : Int := (num.log2 : Int) - (den.log2 : Int) - 53
  let (n, d) := scaled num den low
  max (if n / d < significandEnd then low else low + 1) (-1074)

def ofRatio (negative : Bool) (num den : Nat) : Binary64 :=
  let e := exponentFor num den
  let (n, d) := scaled num den e
  let m := roundHalfEven n d
  let (m, e) := if m = significandEnd then (significandEnd / 2, e + 1) else (m, e)
  if 971 < e then .infinity negative else .finite negative m e

/-- The value nearest to `digits * 10 ^ exponent`. Numerals far outside the range are settled by their
size alone, so that no large power is ever computed. -/
def ofDecimal (negative : Bool) (digits : Nat) (exponent : Int) : Binary64 :=
  if digits = 0 then zero negative
  else
    let size : Int := ((Text.decimal digits).length : Int) + exponent
    if 400 < size then .infinity negative
    else if size < -400 then zero negative
    else
      match exponent with
      | .ofNat k => ofRatio negative (digits * Nat.pow 10 k) 1
      | .negSucc k => ofRatio negative digits (Nat.pow 10 (k + 1))

/-- A decimal numeral in its parts: the digits before the point, those after it, and the power of ten. -/
def ofParts (negative : Bool) (whole fraction : List Char) (exponent : Int) : Binary64 :=
  ofDecimal negative (Text.valueOf 10 (whole ++ fraction)) (exponent - fraction.length)

/-- The whole number that a value is, if it is one. -/
def toInt? : Binary64 → Option Int
  | .finite negative m e =>
    let signed (n : Nat) : Int := if negative then -(n : Int) else n
    match e with
    | .ofNat k => some (signed (m * Nat.pow 2 k))
    | .negSucc k => if m % Nat.pow 2 (k + 1) = 0 then some (signed (m / Nat.pow 2 (k + 1))) else none
  | _ => none

/-- Zero of either sign; every other value, not-a-number included, counts as something. -/
def isZero : Binary64 → Bool
  | .finite _ 0 _ => true
  | _ => false

def isInfinite : Binary64 → Bool
  | .infinity _ => true
  | _ => false

end Binary64

end ArtifactIdentity
