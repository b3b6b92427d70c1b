import ArtifactIdentity.Files.Listing
import ArtifactIdentity.Stamping

/-!
# Verification

A stamped block is verified by stamping the artifact again, into a directory for passing use, and
comparing the two directories: which files of a block each of them holds, and byte for byte those that both
hold. Other files are left out of account. The directory for passing use is new when it is made, and it is
removed with what is in it however the stamping ends.
-/

namespace ArtifactIdentity

/-- How the block of a directory compares with that of a new stamping: the names of the files that
differ, of those that the directory lacks, and of those that only it has. -/
structure Comparison where
  mismatches : List String := []
  missing : List String := []
  extra : List String := []
deriving DecidableEq, Repr

def Comparison.ok (c : Comparison) : Bool :=
  c.missing.isEmpty && c.extra.isEmpty && c.mismatches.isEmpty

/-- Why a directory cannot be verified. -/
inductive VerificationError where
  | noDirectory (directory : Pathname)
  | notADirectory (directory : Pathname)
  | failed (e : Failure)

def VerificationError.message : VerificationError → String
  | .noDirectory directory => "Artifacts directory does not exist: " ++ directory.text
  | .notADirectory directory => "Artifacts path is not a directory: " ++ directory.text
  | .failed e => e.message

namespace Verification

/-- The part of the program that speaks in the records of verification. -/
def speaker : String :=
  "verify.verify"

/-- The files of a block, each by the names that lead to it from its directory. -/
def blockFiles : List (List String) :=
  [[Block.fileName]]

/-- The files of a list under their paths from the directory. -/
def relativePaths (files : List (List String)) : List String :=
  files.map fun names => Pathname.text ⟨false, names⟩

def differenceRecord (directory : Pathname) (c : Comparison) : LogRecord :=
  ⟨.warning, speaker,
    "Restamp of " ++ directory.text ++ " differs: " ++ Text.decimalText c.missing.length ++
      " missing, " ++ Text.decimalText c.extra.length ++ " extra, " ++
      Text.decimalText c.mismatches.length ++ " mismatched"⟩

def records (directory : Pathname) (c : Comparison) : Log :=
  if c.ok then [] else [differenceRecord directory c]

end Verification

namespace Machine

def blockFilesIn (m : Machine) (directory : Pathname) : List (List String) :=
  Verification.blockFiles.filter fun names => (m.filesBelow directory).contains names

/-- Whether two files hold the same bytes. -/
def agree (m : Machine) (p q : Pathname) : Bool :=
  match m.read p, m.read q with
  | .ok data, .ok data' => data.data = data'.data
  | _, _ => false

/-- The block of a directory compared with one that has been stamped again into another directory. -/
def compareBlocks (m : Machine) (directory again : Pathname) : Comparison :=
  let original := m.blockFilesIn directory
  let regenerated := m.blockFilesIn again
  let differing := original.filter fun names =>
    regenerated.contains names && !m.agree (directory ++ ⟨false, names⟩) (again ++ ⟨false, names⟩)
  { mismatches := Verification.relativePaths differing
    missing := Verification.relativePaths (regenerated.filter fun names => !original.contains names)
    extra := Verification.relativePaths (original.filter fun names => !regenerated.contains names) }

/-- Where the directory for passing use is made: at a place that is free. -/
def scratchPlace (m : Machine) : Except FileError Location :=
  match m.locate false m.scratch with
  | .ok (.vacant l) => if m.tree.isFree l then .ok l else .error .alreadyExists
  | .ok (.found ..) => .error .alreadyExists
  | .error e => .error e

/-- The machine with the directory for passing use in place. -/
def withScratch (m : Machine) : Machine :=
  { m with tree := (m.ensureDirectories m.scratch).1 }

/-- The artifact under a root is stamped again and compared with the block of a directory. -/
def verify (m : Machine) (root directory : Pathname) (excludeTests : Option Bool) :
    Change VerificationError Comparison :=
  if !m.isPresent directory then ⟨m.tree, [], .error (.noDirectory directory)⟩
  else if !m.isDirectory directory then ⟨m.tree, [], .error (.notADirectory directory)⟩
  else
    match m.scratchPlace with
    | .error e => ⟨m.tree, [], .error (.failed (.file e))⟩
    | .ok place =>
      let change := m.withScratch.stamp root (some m.scratch) none excludeTests
      let cleared := change.tree.erase place
      match change.result with
      | .error e => ⟨cleared, change.log, .error (.failed e)⟩
      | .ok _ =>
        let c := { m with tree := change.tree }.compareBlocks directory m.scratch
        ⟨cleared, change.log ++ Verification.records directory c, .ok c⟩

end Machine

end ArtifactIdentity
