import ArtifactIdentity.Files.Machine

/-!
# The disk

The files that a request can touch are read into a tree before it is carried out, and what the request has
changed in the tree is written back. Only the places along given paths are read.

Everything else in this library is about trees whose links hold any words at all. Here a link is known only by
where it leads, since the disk does not tell its words: what depends on the words of a link that leads nowhere
and stands before the end of a path may go another way than on a tree that has them.
-/

namespace ArtifactIdentity.Disk

/-- What is at a location on the disk. What is neither a file nor a link is recorded as a directory. A link is
recorded with the real path that it leads to. The words that stand in a link cannot be had themselves, so one
that leads nowhere is recorded as leading to itself; only at the end of a path, where a file that is written
comes to be where the link leads, one that leads to a free place is as good as that place. -/
def nodeAt (isLast : Bool) (l : Location) : IO (Option Node) := do
  let path := l.text
  match ← (System.mkFilePath [path]).symlinkMetadata.toBaseIO with
  | .error _ => return none
  | .ok status =>
    match status.type with
    | .file => return some (.file (← IO.FS.readBinFile path))
    | .symlink =>
      match ← (System.mkFilePath [path]).metadata.toBaseIO with
      | .ok _ => return some (.link (← IO.FS.realPath path).toString)
      | .error (.noFileOrDirectory ..) => return if isLast then none else some (.link path)
      | .error _ => return some (.link path)
    | _ => return some .directory

/-- A tree with the nodes that the disk holds along a row of names. Behind a link that leads nowhere the names
are gone along as they are written, as the resolution of a path does. -/
partial def readAlong (t : FileTree) (here : Location) : List String → IO FileTree
  | [] => return t
  | name :: rest => do
    if Pathname.SaysNothing name then readAlong t here rest
    else if name = Pathname.up then readAlong t here.dropLast rest
    else
      let l := here ++ [name]
      match ← nodeAt rest.isEmpty l with
      | none => readAlong t l rest
      | some (.link target) =>
        let t := t.insert l (.link target)
        if target = l.text then readAlong t l rest
        else readAlong t [] ((Pathname.ofString target).parts ++ rest)
      | some n => readAlong (t.insert l n) l rest

/-- A machine that knows what the disk holds along a path. -/
def read (m : Machine) (p : Pathname) : IO Machine := do
  if p.holdsNul then return m
  else return { m with tree := ← readAlong m.tree (m.start p) p.parts }

/-- The home directories of the accounts in the text of an account table. -/
def accountsOf (table : String) : List (String × String) :=
  (Text.splitAt '\n' table.toList).filterMap fun line =>
    match Text.splitAt ':' line with
    | [name, _, _, _, _, home, _] => some (String.ofList name, String.ofList home)
    | _ => none

/-- The machine at the start: nothing is known yet but the way to the current directory and to the place of
directories for passing use. -/
def start : IO Machine := do
  let current := (Pathname.ofString (← IO.currentDir).toString).parts
  let table ← (IO.FS.readFile "/etc/passwd").toBaseIO
  let m : Machine :=
    { tree := .empty
      current := current
      home := ← IO.getEnv "HOME"
      accounts := accountsOf (table.toOption.getD "")
      scratch := ⟨true, ["tmp", "restamp"]⟩ }
  read (← read m (.ofLocation current)) ⟨true, m.scratch.parts.dropLast⟩

/-- What a tree holds beyond an earlier one is written to the disk. -/
def write (before after : FileTree) : IO Unit := do
  for (l, n) in before.changes after do
    match n with
    | .file data => IO.FS.writeBinFile l.text data
    | .directory => IO.FS.createDir l.text
    | .link _ => pure ()

end ArtifactIdentity.Disk
