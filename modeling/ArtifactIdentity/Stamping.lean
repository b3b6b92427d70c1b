import ArtifactIdentity.Block.Basic
import ArtifactIdentity.Config.Loading
import ArtifactIdentity.Descriptor.Declaration

/-!
# Stamping

An artifact is stamped by declaring its descriptor from the configuration and writing the metadata block
into the output directory, which is made where it is missing. Everything that can be refused is refused
before the first change to the files.
-/

namespace ArtifactIdentity

/-- The files after a piece of work, the records that it made, and its result. -/
structure Change (ε α : Type) where
  tree : FileTree
  log : Log
  result : Except ε α

structure Stamped where
  descriptor : Descriptor
  excludeTests : Bool
  block : Pathname

/-- A descriptor declared from a configuration: the configuration, and the flag that held. -/
structure Declared where
  config : Config
  excludeTests : Bool
  descriptor : Descriptor

namespace Stamping

/-- The part of the program that speaks in the records of stamping. -/
def speaker : String :=
  "stamping.write"

def stampedRecord (d : Descriptor) (block : Pathname) : LogRecord :=
  ⟨.info, speaker,
    "Stamped " ++ d.title ++ " " ++ d.assemblyVersion.text ++ " into " ++ block.text⟩

/-- The descriptor that a configuration declares. -/
def declareSource (source : Source) (excludeTests : Bool) : Outcome BuildError Descriptor :=
  Declaration.onBuilder excludeTests ((source.internalAccessGrant.map Literal.text).getD .absent)
    source.declaredFields

end Stamping

namespace Machine

/-- The descriptor of the artifact under a root, from a given configuration or its own. A given flag
overrides that of the configuration. -/
def declareArtifact (m : Machine) (root : Pathname) (config : Option Config)
    (excludeTests : Option Bool) : Outcome Failure Declared :=
  match (config.map Except.ok).getD (m.loadConfig root) with
  | .error e => ⟨[], .error e⟩
  | .ok config =>
    match config.requireSource root with
    | .error e => ⟨[], .error e⟩
    | .ok source =>
      let excludeTests := excludeTests.getD config.build.excludeTests
      let outcome := Stamping.declareSource source excludeTests
      ⟨outcome.log,
        match outcome.result with
        | .ok d => .ok ⟨config, excludeTests, d⟩
        | .error e => .error (.build e)⟩

/-- Where the block of an artifact goes: into the directory that is asked for, or that of the
configuration. -/
def outputDirectory (m : Machine) (root : Pathname) (asked : Option Pathname) (config : Config) :
    Except Failure Pathname :=
  match asked with
  | some directory => .ok directory
  | none => (m.resolveOutput root config.build.outputDirectory).map .ofLocation

/-- A block is written into a directory, which is made where it is missing. -/
def writeBlock (m : Machine) (directory : Pathname) (d : Descriptor) :
    FileTree × Except FileError Unit :=
  match m.ensureDirectories directory with
  | (tree, .error e) => (tree, .error e)
  | (tree, .ok ()) =>
    match { m with tree := tree }.write (directory.child Block.fileName) (Block.bytes d) with
    | .ok tree => (tree, .ok ())
    | .error e => (tree, .error e)

/-- The artifact under a root is stamped. -/
def stamp (m : Machine) (root : Pathname) (output : Option Pathname) (config : Option Config)
    (excludeTests : Option Bool) : Change Failure Stamped :=
  let declared := m.declareArtifact root config excludeTests
  match declared.result with
  | .error e => ⟨m.tree, declared.log, .error e⟩
  | .ok ⟨config, excludeTests, d⟩ =>
    match m.outputDirectory root output config with
    | .error e => ⟨m.tree, declared.log, .error e⟩
    | .ok directory =>
      let block := directory.child Block.fileName
      match m.writeBlock directory d with
      | (tree, .error e) => ⟨tree, declared.log, .error (.file e)⟩
      | (tree, .ok ()) =>
        ⟨tree, declared.log ++ [Stamping.stampedRecord d block], .ok ⟨d, excludeTests, block⟩⟩

end Machine

end ArtifactIdentity
