import ArtifactIdentity.Files.Walk

/-!
# File operations

What a program can ask about files and do to them: whether a path leads to something, to read and to write
a file, to make a directory with the directories above it. Every operation walks its path from the root
or from the current directory. An operation that changes files gives the tree after it.
-/

namespace ArtifactIdentity

/-- The surroundings of a program: the files, the current directory, the home directory of the user and
those of the other accounts, and the path at which a directory for passing use can be made. -/
structure Machine where
  tree : FileTree
  current : Location
  home : Option String
  accounts : List (String × String)
  scratch : Pathname

namespace Machine

def start (m : Machine) (p : Pathname) : Location :=
  if p.absolute then [] else m.current

def locate (m : Machine) (followLast : Bool) (p : Pathname) : Except FileError Place :=
  if p.holdsNul then .error .embeddedNul
  else m.tree.walk followLast maxLinks (m.start p) p.parts

def node (m : Machine) (p : Pathname) : Except FileError Node :=
  match m.locate true p with
  | .ok (.found _ n) => .ok n
  | .ok (.vacant _) => .error .notFound
  | .error e => .error e

def isPresent (m : Machine) (p : Pathname) : Bool :=
  match m.node p with
  | .ok _ => true
  | .error _ => false

def isDirectory (m : Machine) (p : Pathname) : Bool :=
  match m.node p with
  | .ok .directory => true
  | _ => false

def isFile (m : Machine) (p : Pathname) : Bool :=
  match m.node p with
  | .ok (.file _) => true
  | _ => false

def read (m : Machine) (p : Pathname) : Except FileError ByteArray :=
  match m.node p with
  | .ok (.file data) => .ok data
  | .ok _ => .error .isADirectory
  | .error e => .error e

def locateToWrite (m : Machine) (p : Pathname) : Except FileError Place :=
  if p.holdsNul then .error .embeddedNul
  else m.tree.walkToWrite maxLinks (m.start p) p.parts

/-- A file holds the given bytes afterwards; it is created where there is none. -/
def write (m : Machine) (p : Pathname) (data : ByteArray) : Except FileError FileTree :=
  match m.locateToWrite p with
  | .ok (.found l (.file _)) | .ok (.vacant l) => .ok (m.tree.insert l (.file data))
  | .ok (.found ..) => .error .isADirectory
  | .error e => .error e

def makeDirectory (m : Machine) (p : Pathname) : Except FileError FileTree :=
  match m.locate false p with
  | .ok (.vacant l) => .ok (m.tree.insert l .directory)
  | .ok (.found ..) => .error .alreadyExists
  | .error e => .error e

def ensureDirectory (m : Machine) (p : Pathname) : Except FileError FileTree :=
  match m.makeDirectory p with
  | .ok tree => .ok tree
  | .error e => if e ≠ .notFound && m.isDirectory p then .ok m.tree else .error e

/-- A directory and, where they are missing, the directories above it, whose names are given from the
last to the first. What has been made stays where a later step fails. -/
def ensureDirectoriesUp (m : Machine) (absolute : Bool) :
    List String → FileTree × Except FileError Unit
  | [] =>
    match m.ensureDirectory ⟨absolute, []⟩ with
    | .ok tree => (tree, .ok ())
    | .error e => (m.tree, .error e)
  | name :: above =>
    let p : Pathname := ⟨absolute, (name :: above).reverse⟩
    match m.ensureDirectory p with
    | .ok tree => (tree, .ok ())
    | .error .notFound =>
      match m.ensureDirectoriesUp absolute above with
      | (tree, .error e) => (tree, .error e)
      | (tree, .ok ()) =>
        match { m with tree := tree }.ensureDirectory p with
        | .ok tree => (tree, .ok ())
        | .error e => (tree, .error e)
    | .error e => (m.tree, .error e)

/-- A directory and, where they are missing, the directories above it. -/
def ensureDirectories (m : Machine) (p : Pathname) : FileTree × Except FileError Unit :=
  m.ensureDirectoriesUp p.absolute p.parts.reverse

/-- The home directory that a name beginning with a tilde stands for. -/
def homeOf (m : Machine) (name : String) : Option String :=
  match name.toList with
  | ['~'] => m.home
  | '~' :: user => m.accounts.lookup (String.ofList user)
  | _ => none

/-- The path of a home directory. Slashes at its end are dropped, and without a name it is the root; with a
tilde at its beginning it is unknown. -/
def homePath (home : String) : Except FileError Pathname :=
  match (home.toList.reverse.dropWhile (· = '/')).reverse with
  | [] => .ok (.ofLocation [])
  | '~' :: _ => .error .noHome
  | home => .ok (.ofString (String.ofList home))

/-- A path with a home directory in the place of a first name that begins with a tilde. -/
def expandHome (m : Machine) (p : Pathname) : Except FileError Pathname :=
  match p.parts with
  | first :: rest =>
    if p.absolute || first.toList.head? ≠ some '~' then .ok p
    else if first.toList.contains '\x00' then .error .embeddedNul
    else
      match m.homeOf first with
      | some home => (homePath home).map (· ++ ⟨false, rest⟩)
      | none => .error .noHome
  | [] => .ok p

end Machine

end ArtifactIdentity
