import ArtifactIdentity.Files.Pathname
import ArtifactIdentity.Table

/-!
# File trees

The files, links and directories under one root, each at its location. The root itself is always a
directory. What a tree holds is told by `get?`, and an insertion changes it at one location only.
-/

namespace ArtifactIdentity

/-- What is found at a location. A link holds the text of the path that it stands for. -/
inductive Node where
  | file (data : ByteArray)
  | link (target : String)
  | directory

def Node.same : Node → Node → Bool
  | .file data, .file data' => data.data = data'.data
  | .link target, .link target' => target = target'
  | .directory, .directory => true
  | _, _ => false

/-- The nodes below the root. -/
structure FileTree where
  entries : List (Location × Node)

namespace FileTree

def empty : FileTree :=
  ⟨[]⟩

def get? (t : FileTree) (l : Location) : Option Node :=
  if l = [] then some .directory else t.entries.lookup l

def insert (t : FileTree) (l : Location) (n : Node) : FileTree :=
  ⟨Table.set l n t.entries⟩

/-- Whether nothing is at a location or below it. -/
def isFree (t : FileTree) (l : Location) : Bool :=
  t.entries.all fun e => !l.isPrefixOf e.1

/-- The tree without a location and everything below it. -/
def erase (t : FileTree) (l : Location) : FileTree :=
  ⟨t.entries.filter fun e => !l.isPrefixOf e.1⟩

/-- The nodes of a later tree that are new or differ. -/
def changes (before after : FileTree) : List (Location × Node) :=
  after.entries.filter fun e => !((before.get? e.1).map e.2.same).getD false

def size (t : FileTree) : Nat :=
  t.entries.length

theorem get?_root (t : FileTree) : t.get? [] = some .directory := by
  simp [get?]

theorem get?_insert_self (t : FileTree) {l : Location} (h : l ≠ []) (n : Node) :
    (t.insert l n).get? l = some n := by
  simp [get?, insert, h, Table.lookup_set_self]

theorem get?_insert_of_ne (t : FileTree) {l l' : Location} (h : l' ≠ l) (n : Node) :
    (t.insert l n).get? l' = t.get? l' := by
  simp [get?, insert, Table.lookup_set_of_ne h]

/-- Putting a node where it is already changes nothing. -/
theorem insert_of_get? {t : FileTree} {l : Location} {n : Node} (hl : l ≠ [])
    (h : t.get? l = some n) : t.insert l n = t := by
  simp only [get?, hl, if_false] at h
  simp [insert, Table.set_of_lookup h]

end FileTree

end ArtifactIdentity
