import ArtifactIdentity.Identity.Malformed
import ArtifactIdentity.Text.Blank

/-!
# Four-part versions

A version is four numbers: major, minor, patch and build, each at most 65534. It is declared as a dotted
text, with zeros in front of a number allowed and white space around the whole, or as a sequence of four
integers. Versions are ordered by their first difference.
-/

namespace ArtifactIdentity

structure Version where
  major : Nat
  minor : Nat
  patch : Nat
  build : Nat
deriving DecidableEq, Repr

namespace Version

/-- The greatest number that a part of a version may be. -/
def maxComponent : Nat :=
  65534

/-- The most digits of which a text is still read as an integer. -/
def maxDigits : Nat :=
  4300

def components (v : Version) : List Nat :=
  [v.major, v.minor, v.patch, v.build]

def toLiteral (v : Version) : Literal :=
  .quad (.integer v.major) (.integer v.minor) (.integer v.patch) (.integer v.build)

def text (v : Version) : String :=
  String.ofList (Text.joinWith '.' (v.components.map Text.decimal))

/-! ## Order -/

/-- The comparison of two rows of numbers by their first difference. -/
def compareComponents : List Nat → List Nat → Ordering
  | [], [] => .eq
  | [], _ :: _ => .lt
  | _ :: _, [] => .gt
  | a :: as, b :: bs => if a < b then .lt else if b < a then .gt else compareComponents as bs

instance : Ord Version where
  compare a b := compareComponents a.components b.components

instance : LT Version where
  lt a b := compare a b = .lt

instance (a b : Version) : Decidable (a < b) :=
  inferInstanceAs (Decidable (compare a b = .lt))

def sort (versions : List Version) : List Version :=
  versions.mergeSort fun a b => !(decide (b < a))

/-! ## Reading -/

/-- A non-empty row of ASCII digits. -/
def isNumeral (cs : List Char) : Bool :=
  !cs.isEmpty && cs.all Text.isDigit

/-- A numeral that, without the zeros in front, has more digits than the greatest part. -/
def isOversized (cs : List Char) : Bool :=
  (Text.decimal maxComponent).length < (cs.dropWhile (· = '0')).length

/-- The numbers of numerals, up to the limit on digits. -/
def numbersOf : List (List Char) → Except Fault (List Int)
  | [] => .ok []
  | cs :: rest =>
    if maxDigits < cs.length then .error (.digits (.reading cs.length))
    else (numbersOf rest).map ((Text.valueOf 10 cs : Int) :: ·)

/-- The integers of a sequence, if all items are integers. -/
def integersOf : List Literal → Option (List Int)
  | [] => some []
  | .integer n :: rest => (integersOf rest).map (n :: ·)
  | _ :: _ => none

/-- The text of a reason against a part that is too great. -/
def tooGreat : String :=
  "component exceeds " ++ Text.decimalText maxComponent

/-- Four numbers within the range make a version; the first number outside it is refused. -/
def ofIntegers (field : String) (literal : Literal) : List Int → Except Fault Version
  | [a, b, c, d] =>
    match [a, b, c, d].find? (fun n => n < 0 || (maxComponent : Int) < n) with
    | some n => refuse field literal (if n < 0 then "negative component" else tooGreat)
    | none => .ok ⟨a.toNat, b.toNat, c.toNat, d.toNat⟩
  | numbers =>
    refuse field literal ("expected 4 components, got " ++ Text.decimalText numbers.length)

def ofText (field : String) (s : String) : Except Fault Version :=
  let parts := Text.splitAt '.' (Text.trim s.toList)
  if !parts.all isNumeral then
    refuse field (.text s) "components must be non-negative integers"
  else if parts.any isOversized then
    refuse field (.text s) tooGreat
  else
    numbersOf parts >>= ofIntegers field (.text s)

def ofLiteral (field : String) (literal : Literal) : Except Fault Version :=
  match literal with
  | .text s => ofText field s
  | _ =>
    match literal.items? with
    | none => refuse field literal "expected 'a.b.c.d' or four integers"
    | some items =>
      match integersOf items with
      | none => refuse field literal "components must be integers"
      | some numbers => ofIntegers field literal numbers

end Version

end ArtifactIdentity
