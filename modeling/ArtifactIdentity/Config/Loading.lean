import ArtifactIdentity.Config.Basic
import ArtifactIdentity.Config.Error
import ArtifactIdentity.Files.Resolution
import ArtifactIdentity.Toml.Document

/-!
# The configuration of an artifact

The configuration stands in a file under the root of the artifact; an artifact without the file has the
default configuration. The directory that a configuration names for the block has to lie within the root
once all links are followed.
-/

namespace ArtifactIdentity

def Config.fileName : String :=
  "descriptor.toml"

def Config.fileUnder (root : Pathname) : Pathname :=
  root.child Config.fileName

/-- The bytes of a configuration file read as a configuration. -/
def Config.ofBytes (file : Pathname) (data : ByteArray) : Except Failure Config :=
  match Toml.ofBytes data with
  | .error .malformed => .error (.config (.notToml file))
  | .error .notUnicode => .error .encoding
  | .error (.digits limit) => .error (.digits limit)
  | .ok entries =>
    match Config.ofEntries entries with
    | .sound config => .ok config
    | .flawed first rest => .error (.config (.invalid file first rest))

namespace Machine

/-- The configuration of the artifact under a root. -/
def loadConfig (m : Machine) (root : Pathname) : Except Failure Config :=
  let file := Config.fileUnder root
  if m.isFile file then
    match m.read file with
    | .ok data => Config.ofBytes file data
    | .error e => .error (.file e)
  else .ok .default

def resolved (m : Machine) (p : Pathname) : Except Failure Location :=
  match m.resolve p with
  | .ok l => .ok l
  | .error e => .error (.file e)

/-- Where the block of an artifact goes: a directory within the root, named by a relative path. -/
def resolveOutput (m : Machine) (root : Pathname) (output : String) : Except Failure Location :=
  if output = "" then .error (.config .noOutput)
  else if output.toList.head? = some '~' || Pathname.startsAtRoot output then
    .error (.config .outputNotRelative)
  else do
    let top ← m.resolved root
    let l ← m.resolved (.ofLocation top ++ .ofString output)
    if l.Within top then .ok l else .error (.config (.outputEscapes output))

end Machine

/-- The section of the descriptor, which a stamped artifact has to have. -/
def Config.requireSource (c : Config) (root : Pathname) : Except Failure Source :=
  match c.source with
  | some source => .ok source
  | none => .error (.config (.noDescriptor (Config.fileUnder root)))

end ArtifactIdentity
