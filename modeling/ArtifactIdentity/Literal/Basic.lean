import ArtifactIdentity.Calendar
import ArtifactIdentity.Number.Binary64

/-!
# Literals

A fact of a descriptor is declared by a literal, and literals come from several places: from a caller, from
a metadata block, from a configuration file. One type holds them all, so that a refused literal can be
shown whatever it was.
-/

namespace ArtifactIdentity

/-- What a sequence of a further kind (a range, a queue, an array) says of itself. Each kind has a way of
its own to be shown, which its items do not tell. -/
structure SequenceTraits where
  /-- The form in which it is shown, where no integer inside it has too many digits for that. -/
  written? : Option String
  /-- The form in which it stands in a sentence. -/
  plain : String
  /-- The name of its kind, where it can be changed. -/
  changeable? : Option String
deriving DecidableEq

/-- A declared value of any kind. A `quad` is a version put together without any check; a `sequence` is
one that is none of those before it; a `table` keeps its entries in the order in which they were given. -/
inductive Literal where
  | absent
  | flag (value : Bool)
  | integer (value : Int)
  | float (value : Binary64)
  | text (value : String)
  | bytes (data : ByteArray)
  | buffer (data : ByteArray)
  | uuid (number : Nat)
  | date (value : Date)
  | time (value : TimeOfDay)
  | moment (value : Moment)
  | list (items : List Literal)
  | tuple (items : List Literal)
  | quad (major minor patch build : Literal)
  | sequence (traits : SequenceTraits) (items : List Literal)
  | table (entries : List (String × Literal))
deriving Inhabited

/-- Named literals in the order in which they were given. -/
abbrev Entries : Type := List (String × Literal)

namespace Literal

/-- Whether a literal used as a condition holds: the absent one, false, zero and everything empty do
not. -/
def truthy : Literal → Bool
  | .absent => false
  | .flag b => b
  | .integer n => n != 0
  | .float x => !x.isZero
  | .text s => s != ""
  | .bytes d | .buffer d => d.size != 0
  | .list items | .tuple items | .sequence _ items => !items.isEmpty
  | .table entries => !entries.isEmpty
  | .uuid _ | .date _ | .time _ | .moment _ | .quad .. => true

def isAbsent : Literal → Bool
  | .absent => true
  | _ => false

/-- Whether a literal is the number `n`, be it written as an integer, as a float or, for zero and one, as
a flag. -/
def isNumber (n : Int) : Literal → Bool
  | .integer m => m = n
  | .flag b => (if b then 1 else 0) = n
  | .float x => x.toInt? = some n
  | _ => false

/-- The items of a literal that is a sequence. Texts and bytes are not among them. -/
def items? : Literal → Option (List Literal)
  | .list items | .tuple items | .sequence _ items => some items
  | .quad a b c d => some [a, b, c, d]
  | _ => none

mutual

/-- The kind of the first changeable literal inside a literal that is to serve as a key; a key must not
change. -/
def changeable? : Literal → Option String
  | .list _ => some "list"
  | .table _ => some "dict"
  | .buffer _ => some "bytearray"
  | .tuple items => anyChangeable? items
  | .quad a b c d => a.changeable? <|> b.changeable? <|> c.changeable? <|> d.changeable?
  | .sequence traits _ => traits.changeable?
  | _ => none

/-- The kind of the first changeable literal among several. -/
def anyChangeable? : List Literal → Option String
  | [] => none
  | item :: rest => item.changeable? <|> anyChangeable? rest

end

end Literal

end ArtifactIdentity
