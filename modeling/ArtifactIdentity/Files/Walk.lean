import ArtifactIdentity.Files.Tree

/-!
# Walking a path

The way from a directory along a row of names. A directory is entered, `..` leads to the directory above,
and a link is replaced by the path that it stands for; a link in the last place may be left alone. A walk
follows at most forty links. It ends at a node, or at a vacant place in a directory that exists, where a
node could be created. A walk to a file that is to be written does not end behind a slash.
-/

namespace ArtifactIdentity

inductive FileError where
  | notFound
  | notADirectory
  | isADirectory
  | alreadyExists
  /-- A walk meets more links than it may follow. -/
  | tooManyLinks
  /-- The links of a path lead back to themselves. -/
  | linkLoop
  /-- The links of a path lead on without an end. -/
  | endlessLinks
  /-- A name holds the character NUL. -/
  | embeddedNul
  /-- No home directory is known for a user. -/
  | noHome
deriving DecidableEq, Repr

inductive Place where
  | found (l : Location) (n : Node)
  | vacant (l : Location)

/-- The names that the path of a link goes along. An empty name behind others asks for a directory there, as
a dot does. -/
def linkNames (target : String) : List String :=
  Pathname.names target

def linkStart (directory : Location) (target : String) : Location :=
  if Pathname.startsAtRoot target then [] else directory

namespace FileTree

/-- A walk from a directory along names; `onward` goes on from a link that is followed. -/
def walkWith (t : FileTree) (followLast : Bool)
    (onward : Location → List String → Except FileError Place) :
    Location → List String → Except FileError Place
  | directory, [] => .ok (.found directory .directory)
  | directory, name :: rest =>
    if Pathname.SaysNothing name then walkWith t followLast onward directory rest
    else if name = Pathname.up then walkWith t followLast onward directory.dropLast rest
    else
      let l := directory ++ [name]
      match t.get? l with
      | some .directory => walkWith t followLast onward l rest
      | some (.file data) =>
        if rest = [] then .ok (.found l (.file data)) else .error .notADirectory
      | some (.link target) =>
        if rest = [] && !followLast then .ok (.found l (.link target))
        else onward (linkStart directory target) (linkNames target ++ rest)
      | none => if rest = [] then .ok (.vacant l) else .error .notFound

def walk (t : FileTree) (followLast : Bool) :
    (links : Nat) → Location → List String → Except FileError Place
  | 0 => t.walkWith followLast fun _ _ => .error .tooManyLinks
  | links + 1 => t.walkWith followLast (t.walk followLast links)

/-- A walk to a file that is to be written. A path that ends in a slash is that of a directory, whatever is
at its last name. -/
def walkToWrite (t : FileTree) : (links : Nat) → Location → List String → Except FileError Place
  | 0 => t.walkWith true fun _ _ => .error .tooManyLinks
  | links + 1 => t.walkWith true fun here names =>
    if names.getLast? = some "" then
      match t.walk false links here (names.reverse.dropWhile (· = "")).reverse with
      | .ok _ => .error .isADirectory
      | .error e => .error e
    else t.walkToWrite links here names

end FileTree

def maxLinks : Nat :=
  40

end ArtifactIdentity
