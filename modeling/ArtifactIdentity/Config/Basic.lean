import ArtifactIdentity.Config.Source

/-!
# Configurations

A configuration has two sections, one for the descriptor of the artifact and one for the build: whether
tests are excluded, and where the metadata block goes.
-/

namespace ArtifactIdentity

/-- How an artifact is stamped. -/
structure BuildSettings where
  excludeTests : Bool
  outputDirectory : String
deriving DecidableEq, Repr

namespace BuildSettings

def excludeTestsName : String :=
  "exclude_tests"

/-- The name of the setting for the directory of the block. -/
def outputDirectoryName : String :=
  "output_dir"

/-- Where the block goes unless a configuration says otherwise. -/
def defaultOutputDirectory : String :=
  ".descriptor"

/-- The settings of an artifact without a configuration. -/
def default : BuildSettings :=
  ⟨false, defaultOutputDirectory⟩

def ofEntries (entries : Entries) : Checked BuildSettings :=
  (BuildSettings.mk
    <$> setting excludeTestsName entries default.excludeTests Coercion.flag
    <*> setting outputDirectoryName entries default.outputDirectory Coercion.text).alsoFlawed
      (strangeKeys [excludeTestsName, outputDirectoryName] entries)

end BuildSettings

/-- A configuration: the descriptor, if it has a section, and the build. -/
structure Config where
  source : Option Source
  build : BuildSettings

namespace Config

/-- The configuration of an artifact that has none. -/
def default : Config :=
  ⟨none, .default⟩

def sourceName : String :=
  "descriptor"

def buildName : String :=
  "build"

def sectionOf {α : Type} (name record : String) (entries : Entries) (default : α)
    (ofEntries : Entries → Checked α) : Checked α :=
  match entries.lookup name with
  | none => .sound default
  | some (.table settings) => (ofEntries settings).inside name
  | some literal => .flawed ⟨[name], .notRecord record, literal⟩ []

def ofEntries (entries : Entries) : Checked Config :=
  (Config.mk
    <$> sectionOf sourceName "DescriptorSource" entries none (fun e => some <$> Source.ofEntries e)
    <*> sectionOf buildName "BuildConfig" entries BuildSettings.default
      BuildSettings.ofEntries).alsoFlawed
      (strangeKeys [sourceName, buildName] entries)

end Config

end ArtifactIdentity
