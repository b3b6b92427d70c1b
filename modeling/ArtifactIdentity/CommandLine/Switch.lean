import ArtifactIdentity.Text.Numeral

/-!
# Switches

The words of a command line that begin with a hyphen. A switch has a long name behind two hyphens, of which
any beginning will do that no other switch shares, and perhaps a letter behind one. A value stands in the
next word or behind an equals sign; letters may be run together. A negative number, a single hyphen and a
word with a space in it are no switches.
-/

namespace ArtifactIdentity.CommandLine

inductive Switch where
  | help
  | verbose
  | outputDirectory
  | artifactsDirectory
  | field
  | strictSchemaVersion
  | excludeTests
  | includeTests
deriving DecidableEq, Repr

namespace Switch

def longName : Switch → String
  | help => "--help"
  | verbose => "--verbose"
  | outputDirectory => "--out-dir"
  | artifactsDirectory => "--artifacts-dir"
  | field => "--field"
  | strictSchemaVersion => "--strict-schema-version"
  | excludeTests => "--exclude-tests"
  | includeTests => "--include-tests"

def letter? : Switch → Option Char
  | help => some 'h'
  | verbose => some 'v'
  | _ => none

def takesValue : Switch → Bool
  | outputDirectory | artifactsDirectory | field => true
  | _ => false

end Switch

/-- How a word of a command line is taken. -/
inductive Word where
  | argument
  /-- A switch by its long name, with the value behind an equals sign. -/
  | long (s : Switch) (value : Option String)
  /-- A switch by its letter, with what follows the letter. -/
  | letter (s : Switch) (rest : List Char)
  /-- A switch that the command does not have. -/
  | unknown
  /-- The beginning of several switches. -/
  | ambiguous
deriving DecidableEq, Repr

def separator : String :=
  "--"

/-- A word that reads as a negative number, perhaps with a line break behind it. -/
def isNegativeNumber (cs : List Char) : Bool :=
  let digits := if cs.getLast? = some '\n' then cs.dropLast else cs
  match digits with
  | '-' :: rest =>
    match rest.dropWhile Text.isNumeral with
    | [] => rest ≠ []
    | '.' :: fraction => fraction ≠ [] && fraction.all Text.isNumeral
    | _ => false
  | _ => false

/-- A word that looks like a switch but names none. -/
def unnamed (cs : List Char) : Word :=
  if isNegativeNumber cs || cs.contains ' ' then .argument else .unknown

def ofLetter? (switches : List Switch) (c : Char) : Option Switch :=
  switches.find? (·.letter? = some c)

/-- A word with a long name or the beginning of one. -/
def longWord (switches : List Switch) (cs : List Char) : Word :=
  let name := cs.takeWhile (· ≠ '=')
  let value : Option String :=
    match cs.dropWhile (· ≠ '=') with
    | [] => none
    | _ :: value => some (String.ofList value)
  match switches.find? (·.longName.toList = name) with
  | some s => .long s value
  | none =>
    match switches.filter fun s => name.isPrefixOf s.longName.toList with
    | [s] => .long s value
    | [] => unnamed cs
    | _ => .ambiguous

/-- How a command that has certain switches takes a word. -/
def classify (switches : List Switch) (word : String) : Word :=
  match word.toList with
  | '-' :: '-' :: rest => longWord switches ('-' :: '-' :: rest)
  | '-' :: c :: rest =>
    match ofLetter? switches c with
    | some s => .letter s rest
    | none => unnamed ('-' :: c :: rest)
  | _ => .argument

/-- The switches of letters that are run together, from behind the first one: those that follow it, and
whether a letter stands for none. No letter takes a value, so an equals sign or a hyphen among them is an
error. -/
def letters? (switches : List Switch) : List Char → Option (List Switch × Bool)
  | [] => some ([], false)
  | c :: rest =>
    if c = '=' || c = '-' then none
    else
      match ofLetter? switches c with
      | none => some ([], true)
      | some s => (letters? switches rest).map fun (more, unknown) => (s :: more, unknown)

/-- Whether a word before the separator is the beginning of several switches. -/
def hasAmbiguous (switches : List Switch) (words : List String) : Bool :=
  (words.takeWhile (· ≠ separator)).any fun w => classify switches w = .ambiguous

end ArtifactIdentity.CommandLine
