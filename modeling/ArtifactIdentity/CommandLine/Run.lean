import ArtifactIdentity.CommandLine.Notice
import ArtifactIdentity.CommandLine.Request

/-!
# Running a request

Each command answers with an exit code: zero for success, one or two where it reports what stands in the
way. Some failures are not reported by any command and end the program. Only stamping changes files.
-/

namespace ArtifactIdentity

/-- Whether a failed declaration is reported to the user; the others are faults in the use of the
builder. -/
def BuildError.isReported : BuildError → Bool
  | .fault (.malformed _) | .conflict .. | .declared => true
  | .fault (.digits _) | .unknownField _ | .repeatedField .. | .grantAsField | .givesBuilder => false

/-- Whether a command reports a failure, with an exit code. -/
def Failure.isReported : Failure → Bool
  | .config _ => true
  | .build e => e.isReported
  | .encoding | .digits _ | .file _ => false

namespace CommandLine

inductive Ending where
  | exit (code : Nat)
  | raised (e : Failure)

/-- The files behind a program, its output and its notices, and how it ended. -/
structure Report where
  tree : FileTree
  output : String
  notices : List Notice
  ending : Ending

namespace Report

def behind (notices : List Notice) (r : Report) : Report :=
  { r with notices := notices ++ r.notices }

def success (tree : FileTree) (output : String) : Report :=
  ⟨tree, output, [], .exit 0⟩

/-- An exit code with the notices that give the reason. -/
def refusal (tree : FileTree) (code : Nat) (notices : List Notice) : Report :=
  ⟨tree, "", notices, .exit code⟩

/-- A failure, which ends the program unless it is reported. -/
def failed (tree : FileTree) (code : Nat) (e : Failure) : Report :=
  if e.isReported then refusal tree code [.failure e] else ⟨tree, "", [], .raised e⟩

end Report

/-- The location that a path of the command line names. -/
def givenPath (m : Machine) (word : String) : Except Failure Pathname :=
  match m.expandHome (.ofString word) with
  | .error e => .error (.file e)
  | .ok p => (m.resolved p).map .ofLocation

/-- The directory of the block: the one that is given, or that of the configuration. -/
def artifactsDirectory (m : Machine) (root : Pathname) (given : Option String) :
    Except Failure Pathname :=
  match given with
  | some word => givenPath m word
  | none => do
    let config ← m.loadConfig root
    (m.resolveOutput root config.build.outputDirectory).map .ofLocation

def givenOutput (m : Machine) (given : Option String) : Except Failure (Option Pathname) :=
  match given with
  | some word => (givenPath m word).map some
  | none => .ok none

/-- The artifact is stamped; the output is the path of its block. -/
def runStamp (m : Machine) (verbose : Bool) (root : Pathname) (output : Option String)
    (excludeTests : Option Bool) : Report :=
  match givenOutput m output with
  | .error e => .failed m.tree 1 e
  | .ok output =>
    let change := m.stamp root output none excludeTests
    let records := recordNotices verbose change.log
    match change.result with
    | .error e => (Report.failed change.tree 1 e).behind records
    | .ok stamped => (Report.success change.tree (stamped.block.text ++ "\n")).behind records

def factText (fact : Fact) : String :=
  String.ofList (fact.chars ++ ['\n'])

/-- The whole block of a directory, or the fact of one field. -/
def runDisplay (m : Machine) (directory : Pathname) (field : Option String) : Report :=
  match m.load directory with
  | .error e => .refusal m.tree 1 [.load e]
  | .ok d =>
    match field with
    | none => .success m.tree (Block.text d)
    | some word =>
      match Field.ofSpelling? word with
      | some f => .success m.tree (factText (d.fact f))
      | none => .refusal m.tree 2 [.query (.unknownField (.text word))]

def runValidate (m : Machine) (directory : Pathname) (strict : Bool) : Report :=
  let inspection := m.validate directory strict
  let notices :=
    inspection.warnings.map (.warning directory) ++ inspection.errors.map (.finding directory)
  ⟨m.tree, "", notices, .exit (if inspection.ok then 0 else 1)⟩

/-- The block of a directory compared with that of a new stamping. -/
def runVerify (m : Machine) (verbose : Bool) (root directory : Pathname)
    (excludeTests : Option Bool) : Report :=
  let change := m.verify root directory excludeTests
  let records := recordNotices verbose change.log
  Report.behind records <|
    match change.result with
    | .error (.failed e) => .failed change.tree 2 e
    | .error e => .refusal change.tree 2 [.verified directory, .verification e]
    | .ok c => if c.ok then .success change.tree "" else .refusal change.tree 1 (differenceNotices c)

/-- A command that works on the block of a directory. -/
def onDirectory (m : Machine) (root : Pathname) (given : Option String)
    (run : Pathname → Report) : Report :=
  match artifactsDirectory m root given with
  | .error e => .failed m.tree 1 e
  | .ok directory => run directory

/-- A request carried out. -/
def run (m : Machine) (r : Request) : Report :=
  match givenPath m r.root with
  | .error e => .failed m.tree 1 e
  | .ok root =>
    match r.command with
    | .stamp output excludeTests => runStamp m r.verbose root output excludeTests
    | .display directory field => onDirectory m root directory (runDisplay m · field)
    | .validate directory strict => onDirectory m root directory (runValidate m · strict)
    | .verify directory excludeTests =>
      onDirectory m root directory (runVerify m r.verbose root · excludeTests)

/-- The report on a command line, unless the line is refused. -/
def answer (m : Machine) (words : List String) : Except Refusal Report :=
  (parse words).map (run m)

end CommandLine

end ArtifactIdentity
