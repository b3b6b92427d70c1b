import ArtifactIdentity.Descriptor.Builder
import ArtifactIdentity.Files.Walk

/-!
# What can go wrong with a configuration

A configuration may be missing a section, be no TOML, break the schema, or name a directory for the block
that is no good. What else can end the work on an artifact is told apart from that: a configuration file
that is no UTF-8 or holds an integer of too many digits, a descriptor that cannot be declared, and files
that cannot be reached.
-/

namespace ArtifactIdentity

/-- What is wrong with a configuration. -/
inductive ConfigError where
  | noDescriptor (file : Pathname)
  | notToml (file : Pathname)
  /-- The issues found in the file, in order. -/
  | invalid (file : Pathname) (first : Issue) (rest : List Issue)
  | noOutput
  | outputNotRelative
  | outputEscapes (output : String)

namespace ConfigError

/-- The sentence for an error, without the detail that may follow it. -/
def text : ConfigError → String
  | .noDescriptor file => "No [descriptor] section in " ++ file.text
  | .notToml file => "Invalid TOML in " ++ file.text ++ ": "
  | .invalid file _ _ => "Invalid config in " ++ file.text ++ ": "
  | .noOutput => "output_dir must be a non-empty relative path"
  | .outputNotRelative => "output_dir must be a relative path within the artifact root"
  | .outputEscapes output => "output_dir '" ++ output ++ "' escapes the artifact root"

/-- The issues behind an error. -/
def issues : ConfigError → List Issue
  | .invalid _ first rest => first :: rest
  | _ => []

/-- What follows the sentence, where anything does. -/
def detail? : ConfigError → Option String
  | .notToml _ => some "the document is malformed"
  | .invalid _ first rest =>
    some ("; ".intercalate ((first :: rest).map fun i => i.placeText ++ ": " ++ i.problem.message))
  | _ => none

def message (e : ConfigError) : String :=
  e.text ++ e.detail?.getD ""

end ConfigError

def FileError.message : FileError → String
  | .notFound => "no such file or directory"
  | .notADirectory => "not a directory"
  | .isADirectory => "is a directory"
  | .alreadyExists => "file exists"
  | .tooManyLinks => "too many levels of symbolic links"
  | .linkLoop => "symlink loop"
  | .endlessLinks => "maximum recursion depth exceeded"
  | .embeddedNul => "embedded null byte"
  | .noHome => "no home directory is known"

/-- What can end the work on an artifact. -/
inductive Failure where
  | config (e : ConfigError)
  /-- A configuration file is no UTF-8. -/
  | encoding
  /-- An integer of a configuration file has too many digits. -/
  | digits (limit : DigitLimit)
  | build (e : BuildError)
  | file (e : FileError)

def Failure.message : Failure → String
  | .config e => e.message
  | .encoding => "the configuration is not UTF-8"
  | .digits limit => limit.message
  | .build e => e.message
  | .file e => e.message

end ArtifactIdentity
