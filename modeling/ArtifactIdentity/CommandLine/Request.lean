import ArtifactIdentity.CommandLine.Switch

/-!
# Requests

What a command line asks for: one of four commands on the artifact under a root, with the switches of that
command. Switches before the command are those of the program. A line that cannot be understood is
answered by a hint on usage; asking for help counts as soon as it is met.
-/

namespace ArtifactIdentity.CommandLine

inductive Command where
  | stamp (output : Option String) (excludeTests : Option Bool)
  | display (directory : Option String) (field : Option String)
  | validate (directory : Option String) (strict : Bool)
  | verify (directory : Option String) (excludeTests : Option Bool)
deriving DecidableEq, Repr

/-- A command line that is understood. -/
structure Request where
  verbose : Bool
  root : String
  command : Command
deriving DecidableEq, Repr

/-- Why a command line is no request: help is asked for, or it cannot be understood. -/
inductive Refusal where
  | help
  | usage
deriving DecidableEq, Repr

/-- The exit code for a command line that is no request. -/
def Refusal.exitCode : Refusal → Nat
  | .help => 0
  | .usage => 2

inductive CommandName where
  | stamp
  | display
  | validate
  | verify
deriving DecidableEq, Repr

namespace CommandName

def ofWord? : String → Option CommandName
  | "stamp" => some stamp
  | "show" => some display
  | "validate" => some validate
  | "verify" => some verify
  | _ => none

def switches : CommandName → List Switch
  | stamp => [.help, .outputDirectory, .excludeTests, .includeTests]
  | display => [.help, .artifactsDirectory, .field]
  | validate => [.help, .artifactsDirectory, .strictSchemaVersion]
  | verify => [.help, .artifactsDirectory, .excludeTests, .includeTests]

end CommandName

def programSwitches : List Switch :=
  [.help, .verbose]

/-- What the words so far say. `unknown` tells that there was a word of no meaning, and `rootIsLast` that
the last word was the root. -/
structure Given where
  verbose : Bool := false
  root : Option String := none
  rootIsLast : Bool := false
  output : Option String := none
  directory : Option String := none
  field : Option String := none
  strict : Bool := false
  excludeTests : Option Bool := none
  unknown : Bool := false

namespace Given

/-- A switch that needs no value. The two switches for tests exclude each other. -/
def flip (g : Given) (s : Switch) : Except Refusal Given :=
  match s with
  | .help => .error .help
  | .verbose => .ok { g with verbose := true }
  | .strictSchemaVersion => .ok { g with strict := true }
  | .excludeTests =>
    if g.excludeTests = some false then .error .usage else .ok { g with excludeTests := some true }
  | .includeTests =>
    if g.excludeTests = some true then .error .usage else .ok { g with excludeTests := some false }
  | .outputDirectory | .artifactsDirectory | .field => .error .usage

def assign (g : Given) (s : Switch) (value : String) : Except Refusal Given :=
  match s with
  | .outputDirectory => .ok { g with output := some value }
  | .artifactsDirectory => .ok { g with directory := some value }
  | .field => .ok { g with field := some value }
  | _ => .error .usage

def flipLetters (switches : List Switch) (g : Given) (first : Switch) (rest : List Char) :
    Except Refusal Given :=
  match letters? switches rest with
  | none => .error .usage
  | some (more, unknown) =>
    ((first :: more).foldlM flip g).map fun g => { g with unknown := g.unknown || unknown }

def argument (g : Given) (word : String) : Given :=
  if g.root.isNone then { g with root := some word, rootIsLast := true }
  else { g with unknown := true, rootIsLast := false }

/-- The words behind the separator are all arguments. -/
def arguments (g : Given) (words : List String) : Given :=
  if g.root.isSome then { g with unknown := g.unknown || !(g.rootIsLast && words.isEmpty) }
  else words.foldl argument g

end Given

def readWords (switches : List Switch) : Given → List String → Except Refusal Given
  | g, [] => .ok g
  | g, word :: rest =>
    if word = separator then .ok (g.arguments rest)
    else
      let g' := { g with rootIsLast := false }
      match classify switches word with
      | .argument => readWords switches (g.argument word) rest
      | .unknown => readWords switches { g' with unknown := true } rest
      | .ambiguous => .error .usage
      | .letter s more =>
        match g'.flipLetters switches s more with
        | .ok g => readWords switches g rest
        | .error e => .error e
      | .long s value =>
        if s.takesValue then
          match value, rest with
          | some value, rest =>
            match g'.assign s value with
            | .ok g => readWords switches g rest
            | .error e => .error e
          | none, value :: rest =>
            if value ≠ separator && classify switches value = .argument then
              match g'.assign s value with
              | .ok g => readWords switches g rest
              | .error e => .error e
            else .error .usage
          | none, [] => .error .usage
        else
          match value with
          | some _ => .error .usage
          | none =>
            match g'.flip s with
            | .ok g => readWords switches g rest
            | .error e => .error e

/-- The command that the words of a command amount to. -/
def CommandName.command (name : CommandName) (g : Given) : Command :=
  match name with
  | .stamp => .stamp g.output g.excludeTests
  | .display => .display g.directory g.field
  | .validate => .validate g.directory g.strict
  | .verify => .verify g.directory g.excludeTests

/-- The request of a command and its words, behind the switches of the program. -/
def readCommand (g : Given) (name : CommandName) (words : List String) : Except Refusal Request :=
  if hasAmbiguous name.switches words then .error .usage
  else
    match readWords name.switches {} words with
    | .error e => .error e
    | .ok own =>
      if g.unknown || own.unknown then .error .usage
      else .ok ⟨g.verbose, own.root.getD ".", name.command own⟩

/-- The words up to the command are switches of the program. -/
def readProgram : Given → List String → Except Refusal Request
  | _, [] => .error .usage
  | g, word :: rest =>
    if word = separator then .error .usage
    else
      match classify programSwitches word with
      | .argument =>
        match CommandName.ofWord? word with
        | some name => readCommand g name rest
        | none => .error .usage
      | .unknown => readProgram { g with unknown := true } rest
      | .ambiguous => .error .usage
      | .letter s more =>
        match g.flipLetters programSwitches s more with
        | .ok g => readProgram g rest
        | .error e => .error e
      | .long s value =>
        match value with
        | some _ => .error .usage
        | none =>
          match g.flip s with
          | .ok g => readProgram g rest
          | .error e => .error e

/-- The request of a command line. -/
def parse (words : List String) : Except Refusal Request :=
  if hasAmbiguous programSwitches words then .error .usage else readProgram {} words

end ArtifactIdentity.CommandLine
