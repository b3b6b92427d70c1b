import ArtifactIdentity.CommandLine.Run
import ArtifactIdentity.Disk
import Std.Time

/-!
# The program

The words of the command line are read as a request, which is carried out on what the disk holds; then the
changes are written, and the output and the notices are printed.
-/

namespace ArtifactIdentity

def usageText : String :=
  "usage: descriptor [-h] [-v] stamp [--out-dir DIR] [--exclude-tests | --include-tests] [ROOT]\n" ++
  "       descriptor [-h] [-v] show [--artifacts-dir DIR] [--field NAME] [ROOT]\n" ++
  "       descriptor [-h] [-v] validate [--artifacts-dir DIR] [--strict-schema-version] [ROOT]\n" ++
  "       descriptor [-h] [-v] verify [--artifacts-dir DIR] [--exclude-tests | --include-tests] [ROOT]"

/-- The directory that a command names on the command line. -/
def CommandLine.Command.directory? : CommandLine.Command → Option String
  | .stamp directory _ | .display directory _ | .validate directory _ | .verify directory _ => directory

/-- A machine that knows what the disk holds along a path given on the command line. -/
def readGiven (m : Machine) (word : String) (file : String) : IO Machine :=
  match m.expandHome (.ofString word) with
  | .ok p => Disk.read m (p.child file)
  | .error _ => return m

/-- A machine that knows of the disk what a request has to do with: the configuration under the root and
the block, in the directory that is given and in that of the configuration. -/
def surroundings (r : CommandLine.Request) : IO Machine := do
  let m ← readGiven (← Disk.start) r.root Config.fileName
  let m ←
    match r.command.directory? with
    | some word => readGiven m word Block.fileName
    | none => pure m
  match (CommandLine.givenPath m r.root).toOption with
  | none => return m
  | some root =>
    match (m.loadConfig root).toOption with
    | none => return m
    | some config =>
      Disk.read m ((root ++ .ofString config.build.outputDirectory).child Block.fileName)

/-- How the program ends: a failure that no command reports is printed here. -/
def conclude : CommandLine.Ending → IO UInt32
  | .exit code => return code.toUInt32
  | .raised e => do
    IO.eprintln (CommandLine.errorLine e.message)
    return 1

end ArtifactIdentity

open ArtifactIdentity

/-- The program on the words of its command line. -/
def main (words : List String) : IO UInt32 := do
  match CommandLine.parse words with
  | .error refusal =>
    if refusal = .help then IO.println usageText else IO.eprintln usageText
    return refusal.exitCode.toUInt32
  | .ok request =>
    let m ← surroundings request
    let report := CommandLine.run m request
    Disk.write m.tree report.tree
    let time := (← Std.Time.PlainDateTime.now).format "uuuu-MM-dd HH:mm:ss,SSS"
    for notice in report.notices do
      IO.eprintln (notice.line time id)
    IO.print report.output
    conclude report.ending
