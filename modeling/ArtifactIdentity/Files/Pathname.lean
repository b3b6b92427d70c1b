import ArtifactIdentity.Text.Split

/-!
# Path names and locations

A path name is the way to a file as a person writes it: from the root or from the current directory, a row
of names in which `..` goes back up. Empty names and single dots say nothing and are dropped. Only at the
beginning are exactly two slashes kept: they are told by an empty first name. A location is where a file is:
the names that lead to it from the root, each of them an entry of the directory before it.
-/

namespace ArtifactIdentity

/-- The entries that lead from the root to a place. -/
abbrev Location : Type := List String

/-- Whether a location is written with two slashes at its beginning. -/
def Location.isDoubled (l : Location) : Bool :=
  l.head? = some ""

def Location.text (l : Location) : String :=
  if l.isDoubled then "//" ++ "/".intercalate l.tail else "/" ++ "/".intercalate l

/-- A location is on or below another, name by name. It begins with as many slashes as the other. -/
def Location.Within (l top : Location) : Prop :=
  top <+: l ∧ l.isDoubled = top.isDoubled

instance (l top : Location) : Decidable (l.Within top) :=
  inferInstanceAs (Decidable (_ ∧ _))

structure Pathname where
  absolute : Bool
  parts : List String
deriving DecidableEq, Repr

namespace Pathname

def up : String :=
  ".."

def here : String :=
  "."

/-- An empty name and a dot lead nowhere else. -/
def SaysNothing (name : String) : Prop :=
  name = "" ∨ name = here

instance : DecidablePred SaysNothing :=
  fun _ => inferInstanceAs (Decidable (_ ∨ _))

theorem not_saysNothing_up : ¬ SaysNothing up := by
  decide

def names (s : String) : List String :=
  (Text.splitAt '/' s.toList).map String.ofList

def startsAtRoot (s : String) : Bool :=
  s.toList.head? = some '/'

/-- Whether a text begins with exactly two slashes. -/
def startsDoubled (s : String) : Bool :=
  match s.toList with
  | '/' :: '/' :: rest => rest.head? ≠ some '/'
  | _ => false

def ofString (s : String) : Pathname :=
  let parts := (names s).filter fun name => ¬ SaysNothing name
  ⟨startsAtRoot s, if startsDoubled s then "" :: parts else parts⟩

def ofLocation (l : Location) : Pathname :=
  ⟨true, l⟩

def text (p : Pathname) : String :=
  if p.absolute then Location.text p.parts
  else if p.parts = [] then here
  else "/".intercalate p.parts

/-- A path read from the place that another path leads to. -/
def append (p q : Pathname) : Pathname :=
  if q.absolute then q else ⟨p.absolute, p.parts ++ q.parts⟩

instance : Append Pathname where
  append := append

/-- The entry of a given name in the directory that a path leads to. -/
def child (p : Pathname) (name : String) : Pathname :=
  ⟨p.absolute, p.parts ++ [name]⟩

/-- Whether a path holds the character NUL, which no file name can hold. -/
def holdsNul (p : Pathname) : Bool :=
  p.parts.any (·.toList.contains '\x00')

end Pathname

end ArtifactIdentity
