import ArtifactIdentity.Number.Binary64

/-!
# The shortest decimal of a binary number

A finite value is written with the fewest decimal digits that read back as the same value; among numerals
of that many digits the one nearest to the value is taken. The digits are found by testing, for one digit,
two digits and so on, the two neighbours of the value on the decimal grid of that many digits against the
interval of numbers that round to the value. Where the point stands and when an exponent is used is a
matter of the format, given once as `DecimalStyle`.
-/

namespace ArtifactIdentity.Binary64

/-- The numbers that round to a value, as quotients over one denominator: the value itself, both ends of
the interval, and whether the ends belong to it. -/
structure Interval where
  value : Nat
  low : Nat
  high : Nat
  den : Nat
  closed : Bool

/-- The interval of a positive value. Below a power of two the neighbours are nearer, so the lower end
is half as far away there. -/
def interval (significand : Nat) (exponent : Int) : Interval :=
  let atPower := significand = significandEnd / 2 && exponent != -1074
  let (v, d) := scaled (4 * significand) 1 (2 - exponent)
  let unit := v / (4 * significand)
  { value := v, low := v - (if atPower then unit else 2 * unit), high := v + 2 * unit, den := d,
    closed := significand % 2 = 0 }

/-- Whether `digits * 10 ^ k`, as a quotient, lies in the interval. -/
def Interval.covers (i : Interval) (num den : Nat) : Bool :=
  if i.closed then i.low * den ≤ num * i.den && num * i.den ≤ i.high * den
  else i.low * den < num * i.den && num * i.den < i.high * den

/-- `digits * 10 ^ k` as a quotient. -/
def decimalQuotient (digits : Nat) (k : Int) : Nat × Nat :=
  match k with
  | .ofNat k => (digits * Nat.pow 10 k, 1)
  | .negSucc k => (digits, Nat.pow 10 (k + 1))

/-- The exponent of the leading decimal digit of a positive quotient, found upwards or downwards from a
start by at most `steps` steps. -/
def leadingExponent (num den : Nat) : (steps : Nat) → Int → Int
  | 0, e => e
  | steps + 1, e =>
    let (a, b) := decimalQuotient 1 e
    let (c, d) := decimalQuotient 1 (e + 1)
    if num * b < a * den then leadingExponent num den steps (e - 1)
    else if c * den ≤ num * d then leadingExponent num den steps (e + 1)
    else e

def Interval.measured (i : Interval) (k : Int) : Nat × Nat :=
  (i.value * (decimalQuotient 1 k).2, i.den * (decimalQuotient 1 k).1)

/-- The multiple of `10 ^ k` nearest to the value; of two equally near ones the even one. -/
def nearestOnGrid (i : Interval) (k : Int) : Nat :=
  roundHalfEven (i.measured k).1 (i.measured k).2

/-- The neighbour of the value on the grid that is not the nearest. -/
def otherOnGrid (i : Interval) (k : Int) : Nat :=
  let below := (i.measured k).1 / (i.measured k).2
  if nearestOnGrid i k = below then below + 1 else below

/-- The nearer of the two neighbours of the value on the grid of multiples of `10 ^ k` that reads
back, if one of them does. -/
def Interval.onGrid (i : Interval) (k : Int) : Option Nat :=
  let fits (digits : Nat) := i.covers (decimalQuotient digits k).1 (decimalQuotient digits k).2
  if fits (nearestOnGrid i k) then some (nearestOnGrid i k)
  else if fits (otherOnGrid i k) then some (otherOnGrid i k)
  else none

/-- The digits of the first grid that has one, starting with the exponent `k` and going down. -/
def Interval.firstGrid (i : Interval) : (steps : Nat) → Int → Nat × Int
  | 0, k => ((i.onGrid k).getD 0, k)
  | steps + 1, k =>
    match i.onGrid k with
    | some digits => (digits, k)
    | none => i.firstGrid steps (k - 1)

/-- The digits without the zeros at their end, which move into the exponent. -/
def dropZeros : (steps : Nat) → Nat → Int → Nat × Int
  | 0, digits, k => (digits, k)
  | steps + 1, digits, k =>
    if digits ≠ 0 && digits % 10 = 0 then dropZeros steps (digits / 10) (k + 1) else (digits, k)

/-- The shortest decimal of a positive value: whole digits and a power of ten. Seventeen digits are
always enough. -/
def shortest (significand : Nat) (exponent : Int) : Nat × Int :=
  let i := interval significand exponent
  let start : Int := (((significand.log2 : Int) + exponent) * 30103) / 100000
  let lead := leadingExponent i.value i.den 4 start
  let (digits, k) := i.firstGrid 17 lead
  dropZeros 20 digits k

/-- How a decimal is laid out. -/
structure DecimalStyle where
  /-- The least exponent of the leading digit that is written without a power of ten. -/
  leastPlain : Int
  /-- The greatest such exponent. -/
  greatestPlain : Int
  /-- The least number of digits of a power of ten. -/
  exponentWidth : Nat

/-- Numbers from 0.0001 up to below 10^16 are written plainly, and a power of ten has two digits or
more. -/
def plainStyle : DecimalStyle :=
  ⟨-4, 15, 2⟩

/-- `digits * 10 ^ k` in a layout. A number written plainly always has a point, a number with a power
of ten only where more than one digit is left. -/
def DecimalStyle.layout (style : DecimalStyle) (digits : Nat) (k : Int) : String :=
  let cs := Text.decimal digits
  let lead : Int := (cs.length : Int) - 1 + k
  if style.leastPlain ≤ lead && lead ≤ style.greatestPlain then
    if lead < 0 then
      "0." ++ String.ofList (List.replicate (-lead - 1).toNat '0' ++ cs)
    else
      let whole := cs.take (lead.toNat + 1)
      let zeros := List.replicate (lead.toNat + 1 - whole.length) '0'
      let fraction := cs.drop (lead.toNat + 1)
      String.ofList (whole ++ zeros ++ '.' :: (if fraction = [] then ['0'] else fraction))
  else
    let point := if cs.length ≤ 1 then cs else cs.take 1 ++ '.' :: cs.drop 1
    String.ofList point ++ (if lead < 0 then "e-" else "e+") ++
      Text.decimalPadded style.exponentWidth lead.natAbs

def text : Binary64 → String
  | .nan => "nan"
  | .infinity negative => if negative then "-inf" else "inf"
  | .finite negative m e =>
    let sign := if negative then "-" else ""
    if m = 0 then sign ++ plainStyle.layout 0 0
    else
      let (digits, k) := shortest m e
      sign ++ plainStyle.layout digits k

end ArtifactIdentity.Binary64
