import ArtifactIdentity.Block.Inspection
import ArtifactIdentity.Verification

/-!
# Notices

What the program writes beside its output: log records and the reasons why a command did not succeed. A
notice is one line, perhaps with line breaks inside. Where a reason ends in a detail about a document that
cannot be read, the detail may be rephrased.
-/

namespace ArtifactIdentity.CommandLine

inductive Notice where
  | record (r : LogRecord)
  | failure (e : Failure)
  | query (e : QueryError)
  | load (e : LoadError)
  | verification (e : VerificationError)
  /-- The directory that was to be verified. -/
  | verified (p : Pathname)
  | warning (directory : Pathname) (f : Finding)
  | finding (directory : Pathname) (f : Finding)
  /-- A file in which two blocks differ, under the way in which they do. -/
  | difference (way file : String)

def errorLine (message : String) : String :=
  "error: " ++ message

/-- The message of a failure with its detail rephrased. -/
def failureText (rephrase : String → String) : Failure → String
  | .config e => e.text ++ (e.detail?.map rephrase).getD ""
  | e => e.message

/-- The line for a notice, where a record is made at a given time. -/
def Notice.line (time : String) (rephrase : String → String) : Notice → String
  | .record r => r.line time
  | .failure e => errorLine (failureText rephrase e)
  | .query e => errorLine e.message
  | .load e => errorLine (e.text (rephrase Block.jsonDetail))
  | .verification (.failed e) => errorLine (failureText rephrase e)
  | .verification e => errorLine e.message
  | .verified p => "artifacts-dir: " ++ p.text
  | .warning directory f =>
    (f.path directory).text ++ ": warning: " ++ f.text (rephrase Block.jsonDetail)
  | .finding directory f =>
    (f.path directory).text ++ ": " ++ f.text (rephrase Block.jsonDetail)
  | .difference way file => way ++ ": " ++ file

/-- Records as notices: all of them for a verbose program, else those that warn. -/
def recordNotices (verbose : Bool) (log : Log) : List Notice :=
  (log.filter fun r => verbose || r.level = .warning).map .record

def differenceNotices (c : Comparison) : List Notice :=
  c.missing.map (.difference "missing") ++ c.extra.map (.difference "extra") ++
    c.mismatches.map (.difference "mismatches")

end ArtifactIdentity.CommandLine
