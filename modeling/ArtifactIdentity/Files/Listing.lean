import ArtifactIdentity.Files.Machine

/-!
# Listing files

The files in a directory and in the directories below it, each by the names that lead to it from there. A
link to a directory is not entered; a link to a file is listed as a file.
-/

namespace ArtifactIdentity

namespace FileTree

/-- Whether names lead from a location through directories alone, whatever the last one is. -/
def goesDown (t : FileTree) : Location → List String → Bool
  | _, [] | _, [_] => true
  | l, name :: next :: rest =>
    match t.get? (l ++ [name]) with
    | some .directory => goesDown t (l ++ [name]) (next :: rest)
    | _ => false

/-- The names that lead from a directory to each node below it. -/
def below (t : FileTree) (l : Location) : List (List String) :=
  t.entries.filterMap fun e =>
    match l.isPrefixOf? e.1 with
    | some names => if names ≠ [] && t.goesDown l names then some names else none
    | none => none

end FileTree

/-- The files below the directory that a path leads to. -/
def Machine.filesBelow (m : Machine) (p : Pathname) : List (List String) :=
  match m.locate true p with
  | .ok (.found l .directory) => (m.tree.below l).filter fun names => m.isFile (p ++ ⟨false, names⟩)
  | _ => []

end ArtifactIdentity
