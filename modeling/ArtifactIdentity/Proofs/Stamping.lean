import ArtifactIdentity.Proofs.Block.RoundTrip
import ArtifactIdentity.Proofs.Toml.Objects
import ArtifactIdentity.Stamping

/-!
# What stamping leaves

A stamping that succeeds is a declaration, a directory and a written block, one after the other, and nothing
else changes the files. So a stamping that fails leaves every file as it is, and one that succeeds changes
the file of its block alone.
-/

namespace ArtifactIdentity

/-! ## What a text declares -/

theorem Toml.ofBytes_toUTF8 (s : String) : ofBytes s.toUTF8 = ofChars s.toList := by
  rw [ofBytes, Json.fromUTF8?_toUTF8]

/-- A JSON object is no configuration. -/
theorem Config.ofBytes_of_object (file : Pathname) {data : ByteArray} {members : List (String × Json)}
    (h : Json.ofBytes? data = some (.object members)) :
    ofBytes file data = .error (.config (.notToml file)) := by
  rw [ofBytes, Toml.ofBytes_of_object h]

theorem Config.ofBytes_block (file : Pathname) (d : Descriptor) :
    ofBytes file (Block.bytes d) = .error (.config (.notToml file)) :=
  ofBytes_of_object file (Block.ofBytes?_bytes d)

namespace Stamping

/-- What the text of a configuration declares without a flag, and how it is built, if it declares
something. -/
def declaredBy? (text : String) : Option (Descriptor × BuildSettings) := do
  let entries ← (Toml.ofChars text.toList).toOption
  let config ← (Config.ofEntries entries).surfaced.toOption
  let source ← config.source
  let d ← (declareSource source config.build.excludeTests).result.toOption
  return (d, config.build)

end Stamping

theorem Machine.declareArtifact_of_declaredBy {m : Machine} {root : Pathname} {text : String}
    {d : Descriptor} {build : BuildSettings}
    (hfile : m.node (Config.fileUnder root) = .ok (.file text.toUTF8))
    (h : Stamping.declaredBy? text = some (d, build)) :
    ∃ declared, (m.declareArtifact root none none).result = .ok declared ∧
      declared.descriptor = d ∧ declared.config.build = build := by
  unfold Stamping.declaredBy? at h
  simp only [bind, pure, Option.bind_eq_some_iff, Option.some.injEq, Prod.mk.injEq] at h
  obtain ⟨entries, hentries, config, hconfig, source, hsource, d', hd, rfl, rfl⟩ := h
  have hread : m.read (Config.fileUnder root) = .ok text.toUTF8 := read_eq_ok_iff.mpr hfile
  have hthere : m.isFile (Config.fileUnder root) = true := isFile_iff.mpr ⟨_, hfile⟩
  have hload : m.loadConfig root = .ok config := by
    simp only [loadConfig, hthere, hread, if_true, Config.ofBytes, Toml.ofBytes_toUTF8,
      eq_ok_of_toOption hentries, Checked.eq_sound_iff_toOption.mpr hconfig]
  refine ⟨⟨config, config.build.excludeTests, d'⟩, ?_, rfl, rfl⟩
  simp only [declareArtifact, Option.map_none, Option.getD_none, hload, Config.requireSource, hsource,
    eq_ok_of_toOption hd]

namespace Machine

variable {m : Machine} {root directory : Pathname} {output : Option Pathname} {config : Option Config}
  {excludeTests : Option Bool} {d : Descriptor}

/-! ## Declaring -/

/-- What is declared comes from a configuration, its source and a flag. -/
theorem declareArtifact_eq_ok {declared : Declared}
    (h : (m.declareArtifact root config excludeTests).result = .ok declared) :
    (config.map Except.ok).getD (m.loadConfig root) = .ok declared.config ∧
      ∃ source, declared.config.requireSource root = .ok source ∧
        declared.excludeTests = excludeTests.getD declared.config.build.excludeTests ∧
        (Stamping.declareSource source declared.excludeTests).result = .ok declared.descriptor := by
  unfold declareArtifact at h
  split at h
  · cases h
  rename_i config hconfig
  split at h
  · cases h
  rename_i source hsource
  simp only at h
  split at h
  · rename_i d hd
    obtain rfl := Except.ok.inj h
    exact ⟨hconfig, source, hsource, rfl, hd⟩
  · cases h

theorem wellFormed_of_declareArtifact {declared : Declared}
    (h : (m.declareArtifact root config excludeTests).result = .ok declared) :
    declared.descriptor.WellFormed := by
  obtain ⟨_, source, _, _, hd⟩ := declareArtifact_eq_ok h
  exact Declaration.wellFormed_of_onBuilder hd

theorem loadConfig_of_declareArtifact {declared : Declared}
    (h : (m.declareArtifact root none excludeTests).result = .ok declared) :
    m.loadConfig root = .ok declared.config :=
  (declareArtifact_eq_ok h).1

/-- Only a configuration file declares something. -/
theorem exists_config_file {declared : Declared}
    (h : (m.declareArtifact root none excludeTests).result = .ok declared) :
    ∃ data, m.node (Config.fileUnder root) = .ok (.file data) := by
  obtain ⟨hload, source, hsource, _, _⟩ := declareArtifact_eq_ok h
  refine isFile_iff.mp ?_
  cases hfile : m.isFile (Config.fileUnder root) with
  | true => rfl
  | false =>
    have hdefault : m.loadConfig root = .ok .default := by simp [loadConfig, hfile]
    obtain hnone : Config.default = declared.config := Except.ok.inj (hdefault.symm.trans hload)
    rw [← hnone] at hsource
    cases hsource

theorem loadConfig_congr {m' : Machine}
    (h : m'.node (Config.fileUnder root) = m.node (Config.fileUnder root)) :
    m'.loadConfig root = m.loadConfig root := by
  have hfile : m'.isFile (Config.fileUnder root) = m.isFile (Config.fileUnder root) := by
    rw [isFile, isFile, h]
  have hread : m'.read (Config.fileUnder root) = m.read (Config.fileUnder root) := by
    rw [read, read, h]
  rw [loadConfig, loadConfig, hfile, hread]

/-- What is declared depends on the configuration file alone. -/
theorem declareArtifact_congr {m' : Machine}
    (h : m'.node (Config.fileUnder root) = m.node (Config.fileUnder root)) :
    m'.declareArtifact root none excludeTests = m.declareArtifact root none excludeTests := by
  rw [declareArtifact, declareArtifact, Option.map_none, Option.getD_none, Option.getD_none,
    loadConfig_congr h]

/-! ## Writing a block -/

/-- A block that is written stands in a directory that has been made, in a file of its own. -/
theorem writeBlock_eq_ok {t : FileTree} (h : m.writeBlock directory d = (t, .ok ())) :
    ∃ t₀ l, m.Makes directory t₀ ∧ (m.withTree t₀).isDirectory directory = true ∧ t₀.Fillable l ∧
      t = t₀.insert l (.file (Block.bytes d)) ∧
        (m.withTree t).locate true (directory.child Block.fileName) =
          .ok (.found l (.file (Block.bytes d))) := by
  have hmakes := makes_ensureDirectories m directory
  unfold writeBlock at h
  split at h
  · cases h
  · rename_i t₀ hmade
    rw [hmade] at hmakes
    have hthere := isDirectory_of_ensureDirectories (m := m) (p := directory) (by rw [hmade])
    rw [hmade] at hthere
    split at h
    · rename_i t₁ hwrite
      obtain rfl : t₁ = t := congrArg Prod.fst h
      obtain ⟨l, hl, htree, hlocate⟩ := write_eq_ok hwrite
      exact ⟨t₀, l, hmakes, hthere, hl, htree, hlocate⟩
    · cases h

/-- A block that cannot be written leaves at most new directories. -/
theorem writeBlock_eq_error {t : FileTree} {e : FileError}
    (h : m.writeBlock directory d = (t, .error e)) : m.Makes directory t := by
  have hmakes := makes_ensureDirectories m directory
  unfold writeBlock at h
  split at h
  · rename_i t₀ e₀ hfailed
    obtain rfl : t₀ = t := congrArg Prod.fst h
    rw [hfailed] at hmakes
    exact hmakes
  · rename_i t₀ hmade
    rw [hmade] at hmakes
    split at h
    · cases h
    · obtain rfl : t₀ = t := congrArg Prod.fst h
      exact hmakes

/-- Two paths lead to one file. -/
def SameFile (m : Machine) (p q : Pathname) : Prop :=
  ∃ l data, m.locate true p = .ok (.found l (.file data)) ∧
    m.locate true q = .ok (.found l (.file data))

/-- Another file than that of the block is the same after the block has been written. -/
theorem node_of_writeBlock {t : FileTree} {q : Pathname} {data : ByteArray}
    (h : m.writeBlock directory d = (t, .ok ())) (hq : m.node q = .ok (.file data))
    (happart : ¬ (m.withTree t).SameFile (directory.child Block.fileName) q) :
    (m.withTree t).node q = .ok (.file data) := by
  obtain ⟨t₀, l, hmakes, _, hfill, rfl, hblock⟩ := writeBlock_eq_ok h
  obtain ⟨l', hlocate⟩ := node_eq_ok_iff.mp hq
  have hmade : (m.withTree t₀).locate true q = .ok (.found l' (.file data)) :=
    hmakes.locate_found hlocate
  have hafter := locate_insert hmade hfill (file_ne_link (Block.bytes d))
  -- The new directories leave the path where it was, and the block is another file.
  by_cases heq : l' = l
  · rw [Place.after, if_pos heq] at hafter
    exact absurd ⟨l, Block.bytes d, hblock, hafter⟩ happart
  · rw [Place.after, if_neg heq] at hafter
    exact node_eq_ok_iff.mpr ⟨l', hafter⟩

/-- What is declared stays declared after a block has been written, unless over the configuration. -/
theorem declareArtifact_of_writeBlock {t : FileTree} {declared : Declared}
    (hdeclared : (m.declareArtifact root none excludeTests).result = .ok declared)
    (h : m.writeBlock directory d = (t, .ok ()))
    (happart : ¬ (m.withTree t).SameFile (directory.child Block.fileName) (Config.fileUnder root)) :
    (∃ data, (m.withTree t).node (Config.fileUnder root) = .ok (.file data)) ∧
      (m.withTree t).declareArtifact root none excludeTests =
        m.declareArtifact root none excludeTests := by
  obtain ⟨data, hconfig⟩ := exists_config_file hdeclared
  have hkept := node_of_writeBlock h hconfig happart
  exact ⟨⟨data, hkept⟩, declareArtifact_congr (hkept.trans hconfig.symm)⟩

/-! ## Stamping -/

theorem stamp_of_writeBlock {declared : Declared} {t : FileTree}
    (hdeclared : (m.declareArtifact root config excludeTests).result = .ok declared)
    (hdirectory : m.outputDirectory root output declared.config = .ok directory)
    (hwrite : m.writeBlock directory declared.descriptor = (t, .ok ())) :
    m.stamp root output config excludeTests =
      ⟨t, (m.declareArtifact root config excludeTests).log ++
          [Stamping.stampedRecord declared.descriptor (directory.child Block.fileName)],
        .ok ⟨declared.descriptor, declared.excludeTests, directory.child Block.fileName⟩⟩ := by
  unfold stamp
  simp only [hdeclared, hdirectory, hwrite]

/-- How a stamping can go: it is refused before any change, its block cannot be written, or it is written. -/
theorem stamp_cases (m : Machine) (root : Pathname) (output : Option Pathname) (config : Option Config)
    (excludeTests : Option Bool) :
    (∃ e, (m.stamp root output config excludeTests).result = .error e ∧
        (m.stamp root output config excludeTests).tree = m.tree ∧
        ((m.declareArtifact root config excludeTests).result = .error e ∨
          ∃ declared, (m.declareArtifact root config excludeTests).result = .ok declared ∧
            m.outputDirectory root output declared.config = .error e)) ∨
      ∃ declared directory, (m.declareArtifact root config excludeTests).result = .ok declared ∧
        m.outputDirectory root output declared.config = .ok directory ∧
          ((∃ cause, (m.stamp root output config excludeTests).result = .error (.file cause) ∧
              m.writeBlock directory declared.descriptor =
                ((m.stamp root output config excludeTests).tree, .error cause)) ∨
            (m.stamp root output config excludeTests).result =
                .ok ⟨declared.descriptor, declared.excludeTests, directory.child Block.fileName⟩ ∧
              m.writeBlock directory declared.descriptor =
                ((m.stamp root output config excludeTests).tree, .ok ())) := by
  cases hdeclared : (m.declareArtifact root config excludeTests).result with
  | error e =>
    have hstamp : m.stamp root output config excludeTests =
        ⟨m.tree, (m.declareArtifact root config excludeTests).log, .error e⟩ := by
      simp only [stamp, hdeclared]
    exact Or.inl ⟨e, by rw [hstamp], by rw [hstamp], Or.inl rfl⟩
  | ok declared =>
    cases hdirectory : m.outputDirectory root output declared.config with
    | error e =>
      have hstamp : m.stamp root output config excludeTests =
          ⟨m.tree, (m.declareArtifact root config excludeTests).log, .error e⟩ := by
        simp only [stamp, hdeclared, hdirectory]
      exact Or.inl ⟨e, by rw [hstamp], by rw [hstamp], Or.inr ⟨declared, rfl, hdirectory⟩⟩
    | ok directory =>
      refine Or.inr ⟨declared, directory, rfl, hdirectory, ?_⟩
      rcases hwrite : m.writeBlock directory declared.descriptor with ⟨t, cause | ⟨⟩⟩
      · have hstamp : m.stamp root output config excludeTests =
            ⟨t, (m.declareArtifact root config excludeTests).log, .error (.file cause)⟩ := by
          simp only [stamp, hdeclared, hdirectory, hwrite]
        exact Or.inl ⟨cause, by rw [hstamp], by rw [hstamp]⟩
      · have hstamp := stamp_of_writeBlock hdeclared hdirectory hwrite
        exact Or.inr ⟨by rw [hstamp], by rw [hstamp]⟩

/-- A stamping changes nothing, or what the writing of the block changes. -/
theorem stamp_tree (m : Machine) (root : Pathname) (output : Option Pathname) (given : Option Config)
    (excludeTests : Option Bool) :
    (m.stamp root output given excludeTests).tree = m.tree ∨
      ∃ declared directory,
        (m.declareArtifact root given excludeTests).result = .ok declared ∧
          m.outputDirectory root output declared.config = .ok directory ∧
          (m.stamp root output given excludeTests).tree =
            (m.writeBlock directory declared.descriptor).1 := by
  rcases m.stamp_cases root output given excludeTests with
    ⟨_, -, hsame, -⟩ | ⟨declared, directory, hdeclared, hdirectory, ⟨_, -, hwrite⟩ | ⟨-, hwrite⟩⟩
  · exact Or.inl hsame
  all_goals exact Or.inr ⟨declared, directory, hdeclared, hdirectory, by rw [hwrite]⟩

theorem stamp_eq_ok {stamped : Stamped}
    (h : (m.stamp root output config excludeTests).result = .ok stamped) :
    ∃ declared directory,
      (m.declareArtifact root config excludeTests).result = .ok declared ∧
        m.outputDirectory root output declared.config = .ok directory ∧
          m.writeBlock directory declared.descriptor =
            ((m.stamp root output config excludeTests).tree, .ok ()) ∧
          stamped =
            ⟨declared.descriptor, declared.excludeTests, directory.child Block.fileName⟩ := by
  rcases m.stamp_cases root output config excludeTests with
    ⟨_, hresult, -⟩ | ⟨declared, directory, hdeclared, hdirectory, ⟨_, hresult, -⟩ | ⟨hresult, hwrite⟩⟩
  · cases hresult.symm.trans h
  · cases hresult.symm.trans h
  · exact ⟨declared, directory, hdeclared, hdirectory, hwrite, Except.ok.inj (h.symm.trans hresult)⟩

/-- A stamping that fails has not begun to change files, or its block cannot be written. -/
theorem stamp_eq_error {e : Failure}
    (h : (m.stamp root output config excludeTests).result = .error e) :
    (m.stamp root output config excludeTests).tree = m.tree ∨
      ∃ cause directory, e = .file cause ∧
        m.Makes directory (m.stamp root output config excludeTests).tree := by
  rcases m.stamp_cases root output config excludeTests with
    ⟨_, -, hsame, -⟩ | ⟨_, directory, -, -, ⟨cause, hresult, hwrite⟩ | ⟨hresult, -⟩⟩
  · exact Or.inl hsame
  · exact Or.inr ⟨cause, directory, Except.error.inj (h.symm.trans hresult), writeBlock_eq_error hwrite⟩
  · cases hresult.symm.trans h

/-- The making of directories touches no file. -/
theorem Makes.get?_file_iff {t : FileTree} {l : Location} {data : ByteArray}
    (h : m.Makes directory t) :
    t.get? l = some (.file data) ↔ m.tree.get? l = some (.file data) := by
  rcases h.get? l with hsame | ⟨hbefore, hnow, _⟩
  · rw [hsame]
  · simp [hbefore, hnow]

/-- **A stamping that is refused changes nothing, and one that fails over a file touches no file. One that
succeeds leaves the block of the descriptor it returns in the file to which the path of the block leads;
beside that file only directories are new, and each is reached by a beginning of the path of the output
directory.** -/
theorem stamp_effects (m : Machine) (root : Pathname) (output : Option Pathname)
    (config : Option Config) (excludeTests : Option Bool) :
    let change := m.stamp root output config excludeTests
    (∀ e, change.result = .error e →
        ((∀ cause, e ≠ .file cause) → change.tree = m.tree) ∧
          ∀ l data, change.tree.get? l = some (.file data) ↔ m.tree.get? l = some (.file data)) ∧
      ∀ stamped, change.result = .ok stamped →
        ∃ declared directory block,
          (m.declareArtifact root config excludeTests).result = .ok declared ∧
            m.outputDirectory root output declared.config = .ok directory ∧
            stamped.descriptor = declared.descriptor ∧
            stamped.block = directory.child Block.fileName ∧
            { m with tree := change.tree }.locate true stamped.block =
              .ok (.found block (.file (Block.bytes stamped.descriptor))) ∧
            (∀ n, m.tree.get? block = some n → ∃ old, n = .file old) ∧
            ∀ l, l ≠ block → change.tree.get? l = m.tree.get? l ∨
              m.tree.get? l = none ∧ change.tree.get? l = some .directory ∧
                ∃ parts, parts <+: directory.parts ∧
                  { m with tree := change.tree }.locate false ⟨directory.absolute, parts⟩ =
                    .ok (.found l .directory) := by
  intro change
  refine ⟨?_, ?_⟩
  · intro e he
    rcases stamp_eq_error he with hsame | ⟨cause, directory, rfl, hmakes⟩
    · refine ⟨fun _ => hsame, ?_⟩
      intro l data
      rw [show change.tree = _ from hsame]
    · refine ⟨?_, ?_⟩
      · intro hfile
        exact absurd rfl (hfile cause)
      · intro l data
        exact hmakes.get?_file_iff
  · intro stamped hstamped
    obtain ⟨declared, directory, hdeclared, hdirectory, hwrite, rfl⟩ := stamp_eq_ok hstamped
    obtain ⟨t₀, block, hmakes, _, hfill, htree, hlocate⟩ := writeBlock_eq_ok hwrite
    refine ⟨declared, directory, block, hdeclared, hdirectory, rfl, rfl, hlocate, ?_, ?_⟩
    · intro n hn
      rcases hmakes.get? block with hsame | ⟨hnone, _⟩
      · exact hfill.2 n (hsame.trans hn)
      · rw [hnone] at hn
        cases hn
    · intro l hl
      have hother : change.tree.get? l = t₀.get? l := by
        rw [show change.tree = _ from htree]
        exact FileTree.get?_insert_of_ne t₀ hl _
      rw [hother]
      rcases hmakes.get? l with hsame | ⟨hnone, hnow, parts, hparts, hfound⟩
      · exact Or.inl hsame
      · refine Or.inr ⟨hnone, hnow, parts, hparts, ?_⟩
        rw [show change.tree = _ from htree]
        refine locate_found_insert hfound hfill ?_
        intro old hold
        cases hold

end Machine

/-! ## A sample artifact -/

/-- The configuration of a sample artifact. -/
def Stamping.sampleText : String :=
  "[descriptor]\ntitle='W'\norganization='A'\nproduct_name='W'\n" ++
    "unique_id='97db45a8-f922-456a-a819-7b3c6e5e03ba'\n" ++
    "assembly_version='1.2.3.4'\nfile_version='1.2.3.4'\n"

/-- The descriptor that it declares. -/
def Stamping.sampleDescriptor : Descriptor where
  title := "W"
  description := ""
  configurationTag := ""
  organization := "A"
  productName := "W"
  copyright := ""
  trademark := ""
  culture := ""
  uniqueId := "97db45a8-f922-456a-a819-7b3c6e5e03ba"
  assemblyVersion := ⟨1, 2, 3, 4⟩
  fileVersion := ⟨1, 2, 3, 4⟩
  interopVisible := false
  complianceChecked := false
  internalAccessGrant := none

theorem Stamping.declaredBy?_sampleText :
    declaredBy? sampleText = some (sampleDescriptor, .default) := by
  decide +kernel

/-- A machine with given files beside the current directory and a place for directories of passing use. -/
def Machine.sample (entries : List (Location × Node)) : Machine where
  tree := ⟨(["art"], .directory) :: (["tmp"], .directory) :: entries⟩
  current := ["art"]
  home := none
  accounts := []
  scratch := ⟨true, ["tmp", "restamp"]⟩

/-- The sample artifact before it is stamped. -/
def Machine.plainSample : Machine :=
  sample [(["art", "descriptor.toml"], .file Stamping.sampleText.toUTF8)]

/-- The sample artifact with its block. -/
def Machine.settledSample : Machine :=
  sample
    [(["art", "descriptor.toml"], .file Stamping.sampleText.toUTF8), (["art", ".descriptor"], .directory),
      (["art", ".descriptor", "descriptor.json"], .file (Block.bytes Stamping.sampleDescriptor))]

/-- The configuration of the sample artifact declares its descriptor, wherever the artifact stands. -/
theorem Machine.declareArtifact_sampleText {m : Machine} {root : Pathname} {l : Location}
    (hfile : m.node (Config.fileUnder root) = .ok (.file Stamping.sampleText.toUTF8))
    (hdirectory : m.resolveOutput root BuildSettings.defaultOutputDirectory = .ok l) :
    ∃ declared, (m.declareArtifact root none none).result = .ok declared ∧
      declared.descriptor = Stamping.sampleDescriptor ∧
      m.outputDirectory root none declared.config = .ok (.ofLocation l) := by
  obtain ⟨declared, hdeclared, hd, hbuild⟩ :=
    declareArtifact_of_declaredBy hfile Stamping.declaredBy?_sampleText
  refine ⟨declared, hdeclared, hd, ?_⟩
  rw [outputDirectory, hbuild]
  simp only [BuildSettings.default, hdirectory]
  rfl

/-- Stamping without a configuration is refused, and stamping the sample artifact writes its block and keeps
its configuration. -/
theorem Machine.stamp_effects_on_sample :
    (∃ e, ((sample []).stamp ⟨true, ["art"]⟩ none none none).result = .error e ∧
      ((sample []).stamp ⟨true, ["art"]⟩ none none none).tree = (sample []).tree) ∧
    ∃ stamped block, (plainSample.stamp ⟨true, ["art"]⟩ none none none).result = .ok stamped ∧
      stamped.descriptor = Stamping.sampleDescriptor ∧
      { plainSample with tree := (plainSample.stamp ⟨true, ["art"]⟩ none none none).tree }.locate true
          stamped.block = .ok (.found block (.file (Block.bytes Stamping.sampleDescriptor))) ∧
      (plainSample.stamp ⟨true, ["art"]⟩ none none none).tree.get? ["art", "descriptor.toml"] =
        some (.file Stamping.sampleText.toUTF8) := by
  refine ⟨?_, ?_⟩
  · have hrefused : ((sample []).stamp ⟨true, ["art"]⟩ none none none).result =
        .error (.config (.noDescriptor (Config.fileUnder ⟨true, ["art"]⟩))) := rfl
    exact ⟨_, hrefused, ((stamp_effects _ _ _ _ _).1 _ hrefused).1 fun _ => Failure.noConfusion⟩
  · have hfile : plainSample.node (Config.fileUnder ⟨true, ["art"]⟩) =
        .ok (.file Stamping.sampleText.toUTF8) := rfl
    have houtput : plainSample.resolveOutput ⟨true, ["art"]⟩ BuildSettings.defaultOutputDirectory =
        .ok ["art", ".descriptor"] := rfl
    have hwrite : plainSample.writeBlock (.ofLocation ["art", ".descriptor"]) Stamping.sampleDescriptor =
        (settledSample.tree, .ok ()) := rfl
    obtain ⟨declared, hdeclared, hd, hdirectory⟩ := declareArtifact_sampleText hfile houtput
    rw [← hd] at hwrite
    have hstamp := stamp_of_writeBlock hdeclared hdirectory hwrite
    have hresult := congrArg Change.result hstamp
    obtain ⟨_, _, block, _, _, _, _, hlocate, hbefore, hother⟩ :=
      (stamp_effects plainSample ⟨true, ["art"]⟩ none none none).2 _ hresult
    refine ⟨_, block, hresult, hd, ?_, ?_⟩
    · rw [← hd]
      exact hlocate
    · have hthere : settledSample.locate true ⟨true, ["art", ".descriptor", "descriptor.json"]⟩ =
          .ok (.found ["art", ".descriptor", "descriptor.json"]
            (.file (Block.bytes Stamping.sampleDescriptor))) := rfl
      have hfound := hlocate.symm.trans ((congrArg (fun change : Change Failure Stamped =>
        { plainSample with tree := change.tree }.locate true
          ⟨true, ["art", ".descriptor", "descriptor.json"]⟩) hstamp).trans hthere)
      rw [Except.ok.injEq, Place.found.injEq] at hfound
      have hne : ["art", "descriptor.toml"] ≠ block := by
        rw [hfound.1]
        decide
      rcases hother ["art", "descriptor.toml"] hne with hsame | ⟨hnone, _⟩
      · exact hsame
      · cases hnone

end ArtifactIdentity
