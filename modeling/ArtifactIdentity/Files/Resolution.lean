import ArtifactIdentity.Files.Machine

/-!
# Resolving a path

The location that a path leads to, whether or not anything is there. Names are followed one by one; a link
is replaced by the location that its own path leads to. A link that is being opened already is known by the
way to it, as that is spelled: where it is come to again by the same way, the names that are left are read as
they are written, and the path is refused if walking it still runs in circles. By a way that is spelled
differently it is opened again.
-/

namespace ArtifactIdentity

/-- How the way to a location is spelled: from the root, or from the current directory with a number of steps
up at its beginning. -/
inductive Spelling where
  | fromRoot
  | fromCurrent (steps : Nat)
deriving DecidableEq, Repr

namespace Spelling

/-- The way to the directory above a location, where the current directory is at some depth. A step up is
added where no other name is left on the way. -/
def above (depth : Nat) (l : Location) : Spelling → Spelling
  | fromRoot => fromRoot
  | fromCurrent steps => fromCurrent (if l.length = depth - steps then steps + 1 else steps)

/-- The way on which the path of a link begins. -/
def behind (target : String) (s : Spelling) : Spelling :=
  if Pathname.startsAtRoot target then fromRoot else s

/-- Ways with as many steps up as lead to the root, or more, lead on alike. -/
def rank (depth : Nat) : Spelling → Nat
  | fromRoot => depth + 1
  | fromCurrent steps => min steps depth

end Spelling

/-- Where following the names of a path leads. -/
inductive Expansion where
  | done (s : Spelling) (l : Location)
  /-- A link leads back to itself: the text of its own location and the names that are left. -/
  | looped (text : String)
  /-- A link leads back to itself from ever further above the root. -/
  | endless
  | nul
deriving DecidableEq

/-- A text with names behind it. They begin at the root again where a slash stands first among them. -/
def Pathname.joined (text : String) (rest : List String) : String :=
  let behind := "/".intercalate rest
  if startsAtRoot behind then behind
  else if text.toList.getLast? = some '/' then text ++ behind
  else text ++ "/" ++ behind

namespace FileTree

/-- Names followed from a location; `openLink` follows the path of a link. -/
def expandWith (t : FileTree) (depth : Nat)
    (openLink : Spelling → (link : Location) → (target : String) → Expansion) :
    Spelling → Location → List String → Expansion
  | s, here, [] => .done s here
  | s, here, name :: rest =>
    if Pathname.SaysNothing name then expandWith t depth openLink s here rest
    else if name = Pathname.up then
      expandWith t depth openLink (s.above depth here) here.dropLast rest
    else if name.toList.contains '\x00' then .nul
    else
      let l := here ++ [name]
      match t.get? l with
      | some (.link target) =>
        match openLink s l target with
        | .done s there => expandWith t depth openLink s there rest
        | .looped text => .looped (Pathname.joined text rest)
        | .endless => .endless
        | .nul => .nul
      | _ => expandWith t depth openLink s l rest

/-- What the ways to a link that lead on alike have in common. -/
def wayKey (depth : Nat) (way : Spelling × Location) : Nat × Location :=
  (way.1.rank depth, way.2)

/-- Whether a link is being opened, by a way that leads on alike. -/
def isOpen (depth : Nat) (opened : List (Spelling × Location)) (s : Spelling) (link : Location) : Bool :=
  (opened.map (wayKey depth)).contains (wayKey depth (s, link))

/-- A link that is being opened is come to again. -/
def reopened (opened : List (Spelling × Location)) (s : Spelling) (link : Location) : Expansion :=
  if opened.contains (s, link) then .looped link.text else .endless

/-- Names followed from a location while the links in `opened` are being followed. Every link that is
opened is another one or is come to by another way, so there is room enough for the nodes under each rank. -/
def expand (t : FileTree) (depth : Nat) :
    (room : Nat) → (opened : List (Spelling × Location)) → Spelling → Location → List String → Expansion
  | 0, opened => t.expandWith depth fun s link _ => reopened opened s link
  | room + 1, opened => t.expandWith depth fun s link target =>
    if isOpen depth opened s link then reopened opened s link
    else
      t.expand depth room ((s, link) :: opened) (s.behind target) (linkStart link.dropLast target)
        (linkNames target)

/-- Room for every node under each rank of a spelling. -/
def room (t : FileTree) (depth : Nat) : Nat :=
  (depth + 2) * t.size

end FileTree

/-- Names read as they are written: `..` takes the name before it away. -/
def collapse (names : List String) : Location :=
  names.foldl (fun l name =>
    if Pathname.SaysNothing name then l
    else if name = Pathname.up then l.dropLast
    else l ++ [name]) []

/-- The location that the text of a path from the root says, by its names as they are written. -/
def Location.ofText (text : String) : Location :=
  let names := (Pathname.ofString text).parts
  if Location.isDoubled names then "" :: collapse names else collapse names

namespace Machine

def spelling (p : Pathname) : Spelling :=
  if p.absolute then .fromRoot else .fromCurrent 0

/-- The names of a path followed from where it starts. -/
def expansion (m : Machine) (p : Pathname) : Expansion :=
  m.tree.expand m.current.length (m.tree.room m.current.length) [] (spelling p) (m.start p) p.parts

def resolve (m : Machine) (p : Pathname) : Except FileError Location :=
  match m.expansion p with
  | .done _ l => .ok l
  | .nul => .error .embeddedNul
  | .endless => .error .endlessLinks
  | .looped text =>
    let l := Location.ofText text
    match m.locate true (.ofLocation l) with
    | .error .tooManyLinks => .error .linkLoop
    | .error .embeddedNul => .error .embeddedNul
    | _ => .ok l

end Machine

end ArtifactIdentity
