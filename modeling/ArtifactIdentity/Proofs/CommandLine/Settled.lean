import ArtifactIdentity.Proofs.CommandLine.Reports
import ArtifactIdentity.Proofs.CommandLine.Words
import ArtifactIdentity.Proofs.OutputDirectory

/-!
# Settled artifacts

An artifact is settled when its configuration declares a descriptor and the file of its block holds the
bytes of just that descriptor. Every command agrees on a settled artifact, and stamping it changes nothing.
A stamping that succeeds settles the artifact, unless the block was written over the configuration.
-/

namespace ArtifactIdentity

namespace CommandLine

open Machine (plainSample)

/-- The artifact that words of a command line name is settled. -/
structure Settled (m : Machine) (rootWord : String) (given : Option String)
    (excludeTests : Option Bool) (root directory : Pathname) (declared : Declared) : Prop where
  givenRoot : givenPath m rootWord = .ok root
  resolved : artifactsDirectory m root given = .ok directory
  declares : (m.declareArtifact root none excludeTests).result = .ok declared
  there : m.isDirectory directory = true
  block : m.node (directory.child Block.fileName) = .ok (.file (Block.bytes declared.descriptor))

variable {m : Machine} {rootWord : String} {given : Option String} {excludeTests : Option Bool}
  {root directory : Pathname} {declared : Declared}

/-! ## The directory of the block -/

/-- The readers look for the block in the directory into which it is stamped. -/
theorem artifactsDirectory_eq_ok_iff
    (h : (m.declareArtifact root none excludeTests).result = .ok declared) :
    artifactsDirectory m root given = .ok directory ↔
      ∃ output, givenOutput m given = .ok output ∧
        m.outputDirectory root output declared.config = .ok directory := by
  have hconfig := Machine.loadConfig_of_declareArtifact h
  cases given with
  | none =>
    have hresolved : artifactsDirectory m root none =
        m.outputDirectory root none declared.config := by
      rw [artifactsDirectory, hconfig]
      rfl
    rw [hresolved]
    constructor
    · intro hdirectory
      exact ⟨none, rfl, hdirectory⟩
    · rintro ⟨output, hout, hdirectory⟩
      obtain rfl := Except.ok.inj hout
      exact hdirectory
  | some word =>
    constructor
    · intro hdirectory
      refine ⟨some directory, ?_, rfl⟩
      rw [givenOutput, show givenPath m word = .ok directory from hdirectory]
      rfl
    · rintro ⟨output, hout, hdirectory⟩
      rw [givenOutput] at hout
      rw [artifactsDirectory]
      cases hgiven : givenPath m word with
      | error e =>
        rw [hgiven] at hout
        cases hout
      | ok p =>
        rw [hgiven] at hout
        obtain rfl := Except.ok.inj hout
        exact hdirectory

/-! ## The commands on a settled artifact -/

theorem Settled.validate (h : Settled m rootWord given excludeTests root directory declared)
    (verbose strict : Bool) :
    run m ⟨verbose, rootWord, .validate given strict⟩ = .success m.tree "" := by
  have hd := Machine.wellFormed_of_declareArtifact h.declares
  have hvalid := Machine.validate_of_node hd h.there h.block strict
  simp only [run, h.givenRoot, onDirectory, h.resolved, runValidate, hvalid]
  rfl

theorem Settled.display (h : Settled m rootWord given excludeTests root directory declared)
    (verbose : Bool) :
    run m ⟨verbose, rootWord, .display given none⟩ =
      .success m.tree (Block.text declared.descriptor) := by
  have hd := Machine.wellFormed_of_declareArtifact h.declares
  have hloaded := Machine.load_of_node hd h.block
  simp only [run, h.givenRoot, onDirectory, h.resolved, runDisplay, hloaded]

theorem Settled.verify (h : Settled m rootWord given excludeTests root directory declared)
    (hfresh : m.HasFreshScratch) (verbose : Bool) :
    ∃ notices, run m ⟨verbose, rootWord, .verify given excludeTests⟩ =
      (Report.success m.tree "").behind notices := by
  have hverified := Machine.verify_eq hfresh h.there h.declares
  rw [h.block] at hverified
  have hsame : Comparison.ofNode (.ok (.file (Block.bytes declared.descriptor)))
      declared.descriptor = {} := by
    rw [Comparison.ofNode, if_pos rfl]
  rw [hsame] at hverified
  refine ⟨recordNotices verbose (m.verify root directory excludeTests).log, ?_⟩
  simp only [run, h.givenRoot, onDirectory, h.resolved, runVerify, Machine.verify_tree, hverified]
  rfl

def stampedReport (tree : FileTree) (verbose : Bool) (log : Log) (d : Descriptor) (block : Pathname) :
    Report :=
  (Report.success tree (block.text ++ "\n")).behind
    (recordNotices verbose (log ++ [Stamping.stampedRecord d block]))

theorem run_stamp_of_writeBlock {output : Option Pathname} {tree : FileTree}
    (hroot : givenPath m rootWord = .ok root) (hout : givenOutput m given = .ok output)
    (hdeclared : (m.declareArtifact root none excludeTests).result = .ok declared)
    (hdirectory : m.outputDirectory root output declared.config = .ok directory)
    (hwrite : m.writeBlock directory declared.descriptor = (tree, .ok ())) (verbose : Bool) :
    run m ⟨verbose, rootWord, .stamp given excludeTests⟩ =
      stampedReport tree verbose (m.declareArtifact root none excludeTests).log declared.descriptor
        (directory.child Block.fileName) := by
  have hstamp := Machine.stamp_of_writeBlock hdeclared hdirectory hwrite
  simp only [run, hroot, runStamp, hout, hstamp]
  rfl

/-- Writing the block that is there already changes nothing. -/
theorem Settled.writeBlock (h : Settled m rootWord given excludeTests root directory declared) :
    m.writeBlock directory declared.descriptor = (m.tree, .ok ()) := by
  obtain ⟨l, hlocate⟩ := Machine.node_eq_ok_iff.mp h.block
  obtain ⟨hroot, hnode⟩ := Machine.get?_of_file hlocate
  have hsame := FileTree.insert_of_get? hroot hnode
  rw [Machine.writeBlock, Machine.ensureDirectories_of_isDirectory h.there]
  simp only
  rw [show { m with tree := m.tree } = m from rfl, Machine.write_of_file _ hlocate, hsame]

theorem Settled.stamp (h : Settled m rootWord given excludeTests root directory declared)
    (verbose : Bool) :
    run m ⟨verbose, rootWord, .stamp given excludeTests⟩ =
      stampedReport m.tree verbose (m.declareArtifact root none excludeTests).log declared.descriptor
        (directory.child Block.fileName) := by
  obtain ⟨output, hout, hdirectory⟩ := (artifactsDirectory_eq_ok_iff h.declares).mp h.resolved
  exact run_stamp_of_writeBlock h.givenRoot hout h.declares hdirectory h.writeBlock verbose

/-! ## Paths that stay where they were -/

theorem givenPath_eq_ok_iff {word : String} {p : Pathname} :
    givenPath m word = .ok p ↔
      ∃ q l, m.expandHome (.ofString word) = .ok q ∧ m.resolve q = .ok l ∧ p = .ofLocation l := by
  unfold givenPath
  cases m.expandHome (.ofString word) with
  | error e => simp
  | ok q =>
    cases hresolve : m.resolve q with
    | error e => simp [Machine.resolved, hresolve, Except.map]
    | ok l => simp [Machine.resolved, hresolve, Except.map, eq_comm]

/-- A path of the command line names the same location while the links are the same and that location can
be reached. -/
theorem givenPath_congr {word : String} {p : Pathname} {t' : FileTree} {place : Place}
    (hlinks : m.tree.SameLinks t') (h : givenPath m word = .ok p)
    (hthere : (m.withTree t').locate true p = .ok place) :
    givenPath (m.withTree t') word = .ok p := by
  obtain ⟨q, l, hexpand, hresolve, rfl⟩ := givenPath_eq_ok_iff.mp h
  exact givenPath_eq_ok_iff.mpr ⟨q, l, hexpand, Machine.resolve_congr hlinks hresolve hthere, rfl⟩

/-- On the way to a directory there is a directory at every location. -/
theorem locate_of_append {top rest last : Location}
    (h : m.locate true (.ofLocation (top ++ rest)) = .ok (.found last .directory)) :
    ∃ place, m.locate true (.ofLocation top) = .ok place := by
  by_cases hrest : rest = []
  · rw [hrest, List.append_nil] at h
    exact ⟨_, h⟩
  · obtain ⟨hnul, k, hk, hleads⟩ := Machine.locate_eq_ok_iff.mp h
    obtain ⟨k₁, k₂, middle, rfl, hfirst, _⟩ := FileTree.Leads.split hleads hrest
    refine ⟨_, Machine.locate_eq_ok_iff.mpr ⟨?_, k₁, by omega, hfirst⟩⟩
    simp only [Pathname.holdsNul, Pathname.ofLocation, List.any_append, Bool.or_eq_false_iff] at hnul ⊢
    exact hnul.1

theorem resolveOutput_congr {output : String} {l last : Location} {t' : FileTree}
    (hlinks : m.tree.SameLinks t') (h : m.resolveOutput root output = .ok l)
    (hthere : (m.withTree t').locate true (.ofLocation l) = .ok (.found last .directory)) :
    (m.withTree t').resolveOutput root output = .ok l := by
  obtain ⟨hrelative, top, htop, hout, hinside⟩ := Machine.resolveOutput_eq_ok_iff.mp h
  obtain ⟨rest, rfl⟩ := hinside.1
  -- The output directory lies inside the root, so the root is still reached on the way to it.
  obtain ⟨place, hreached⟩ := locate_of_append hthere
  exact Machine.resolveOutput_eq_ok_iff.mpr ⟨hrelative, top, Machine.resolve_congr hlinks htop hreached,
    Machine.resolve_congr hlinks hout hthere, hinside⟩

/-- The directory of a block is found again once it is there, while the links are the same. -/
theorem artifactsDirectory_congr {output : Option Pathname} {t' : FileTree} {last : Location}
    (hlinks : m.tree.SameLinks t')
    (hdeclared : (m.declareArtifact root none excludeTests).result = .ok declared)
    (hdeclared' : ((m.withTree t').declareArtifact root none excludeTests).result = .ok declared)
    (hout : givenOutput m given = .ok output)
    (hdirectory : m.outputDirectory root output declared.config = .ok directory)
    (hthere : (m.withTree t').locate true directory = .ok (.found last .directory)) :
    artifactsDirectory (m.withTree t') root given = .ok directory := by
  have hbefore : artifactsDirectory m root given = .ok directory :=
    (artifactsDirectory_eq_ok_iff hdeclared).mpr ⟨output, hout, hdirectory⟩
  cases given with
  | some word => exact givenPath_congr hlinks hbefore hthere
  | none =>
    obtain rfl := Except.ok.inj hout
    refine (artifactsDirectory_eq_ok_iff hdeclared').mpr ⟨none, rfl, ?_⟩
    unfold Machine.outputDirectory at hdirectory ⊢
    simp only at hdirectory ⊢
    cases hresolve : m.resolveOutput root declared.config.build.outputDirectory with
    | error e =>
      rw [hresolve] at hdirectory
      cases hdirectory
    | ok l =>
      rw [hresolve] at hdirectory
      obtain rfl := Except.ok.inj hdirectory
      rw [resolveOutput_congr hlinks hresolve hthere]
      rfl

/-! ## A stamping settles an artifact -/

/-- A stamping that exits with success has gone through all its steps. -/
theorem run_stamp_eq_success {verbose : Bool} {r : Report}
    (h : run m ⟨verbose, rootWord, .stamp given excludeTests⟩ = r) (hexit : r.ending = .exit 0) :
    ∃ root output declared directory, givenPath m rootWord = .ok root ∧
      givenOutput m given = .ok output ∧
      (m.declareArtifact root none excludeTests).result = .ok declared ∧
      m.outputDirectory root output declared.config = .ok directory ∧
      m.writeBlock directory declared.descriptor = (r.tree, .ok ()) := by
  subst h
  obtain ⟨root, output, stamped, hroot, hout, hstamped, -, htree⟩ := run_stamp_of_success rfl hexit
  obtain ⟨declared, directory, hdeclared, hdirectory, hwrite, -⟩ := Machine.stamp_eq_ok hstamped
  rw [← htree] at hwrite
  exact ⟨root, output, declared, directory, hroot, hout, hdeclared, hdirectory, hwrite⟩

/-- **A written block settles the artifact, unless it was written over the configuration.** -/
theorem settled_of_writeBlock {output : Option Pathname} {tree : FileTree}
    (hroot : givenPath m rootWord = .ok root) (hout : givenOutput m given = .ok output)
    (hdeclared : (m.declareArtifact root none excludeTests).result = .ok declared)
    (hdirectory : m.outputDirectory root output declared.config = .ok directory)
    (hwrite : m.writeBlock directory declared.descriptor = (tree, .ok ()))
    (happart : ¬ (m.withTree tree).SameFile (directory.child Block.fileName)
      (Config.fileUnder root)) :
    Settled (m.withTree tree) rootWord given excludeTests root directory declared := by
  obtain ⟨⟨data, hconfig⟩, hsame⟩ := Machine.declareArtifact_of_writeBlock hdeclared hwrite happart
  obtain ⟨t₀, l, hmakes, hthere, hfill, htree, hblock⟩ := Machine.writeBlock_eq_ok hwrite
  have hlinks : m.tree.SameLinks tree := by
    rw [htree]
    exact hmakes.sameLinks.trans (hfill.sameLinks_insert (Machine.file_ne_link _))
  obtain ⟨last, hlast⟩ := Machine.node_eq_ok_iff.mp (Machine.isDirectory_iff.mp hthere)
  have hlast' : (m.withTree tree).locate true directory = .ok (.found last .directory) := by
    rw [htree]
    refine Machine.locate_found_insert hlast hfill ?_
    intro old hold
    cases hold
  refine ⟨?_, ?_, ?_, ?_, ?_⟩
  · obtain ⟨l', hl'⟩ := Machine.node_eq_ok_iff.mp hconfig
    have hname : Machine.IsEntryName Config.fileName := by decide +kernel
    obtain ⟨top, htop, _⟩ := Machine.locate_of_child hname hl'
    exact givenPath_congr hlinks hroot htop
  · exact artifactsDirectory_congr hlinks hdeclared (by rwa [hsame]) hout hdirectory hlast'
  · rw [hsame]
    exact hdeclared
  · exact Machine.isDirectory_iff.mpr (Machine.node_eq_ok_iff.mpr ⟨last, hlast'⟩)
  · exact Machine.node_eq_ok_iff.mpr ⟨l, hblock⟩

/-! ## The commands after a stamping -/

/-- **After a stamping that exits with success every command agrees: the block is valid, it is shown byte for
byte, it is verified, and the same stamping again gives the same report and changes no file.** The root and
the directory are words that every command takes as arguments, the block and the configuration are not one
file, and the directory for passing use is fresh. -/
theorem commands_agree_after_stamping {r : Report} (hroot : IsOperand rootWord)
    (hgiven : ∀ w ∈ given, IsOperand w)
    (hstamp : answer m ("stamp" :: rootWord ::
      (directoryWords .outputDirectory given ++ testsWords excludeTests)) = .ok r)
    (hexit : r.ending = .exit 0) (hfresh : { m with tree := r.tree }.HasFreshScratch)
    (happart : ∀ root directory, givenPath m rootWord = .ok root →
      artifactsDirectory m root given = .ok directory →
        ¬ { m with tree := r.tree }.SameFile (directory.child Block.fileName)
          (Config.fileUnder root)) :
    let after : Machine := { m with tree := r.tree }
    ∃ root directory data, givenPath m rootWord = .ok root ∧
      artifactsDirectory m root given = .ok directory ∧
      after.node (directory.child Block.fileName) = .ok (.file data) ∧
      answer after ("validate" :: rootWord :: Switch.strictSchemaVersion.longName ::
          directoryWords .artifactsDirectory given) = .ok ⟨r.tree, "", [], .exit 0⟩ ∧
      (∃ output, answer after ("show" :: rootWord :: directoryWords .artifactsDirectory given) =
        .ok ⟨r.tree, output, [], .exit 0⟩ ∧ output.toUTF8 = data) ∧
      (∃ notices, answer after ("verify" :: rootWord ::
          (directoryWords .artifactsDirectory given ++ testsWords excludeTests)) =
        .ok ⟨r.tree, "", notices, .exit 0⟩) ∧
      answer after ("stamp" :: rootWord ::
        (directoryWords .outputDirectory given ++ testsWords excludeTests)) = .ok r := by
  intro after
  rw [answer_of_parse (parse_stamp hroot hgiven)] at hstamp
  have hrun := Except.ok.inj hstamp
  obtain ⟨root, output, declared, directory, hgivenRoot, hout, hdeclared, hdirectory, hwrite⟩ :=
    run_stamp_eq_success hrun hexit
  have hresolved : artifactsDirectory m root given = .ok directory :=
    (artifactsDirectory_eq_ok_iff hdeclared).mpr ⟨output, hout, hdirectory⟩
  have happart := happart root directory hgivenRoot hresolved
  have hsettled : Settled after rootWord given excludeTests root directory declared :=
    settled_of_writeBlock hgivenRoot hout hdeclared hdirectory hwrite happart
  refine ⟨root, directory, Block.bytes declared.descriptor, hgivenRoot, hresolved, hsettled.block,
    ?_, ⟨Block.text declared.descriptor, ?_, rfl⟩, ?_, ?_⟩
  · rw [answer_of_parse (parse_validate hroot hgiven), hsettled.validate]
    rfl
  · rw [answer_of_parse (parse_show hroot hgiven), hsettled.display]
    rfl
  · obtain ⟨notices, hverified⟩ := hsettled.verify hfresh false
    refine ⟨notices, ?_⟩
    rw [answer_of_parse (parse_verify hroot hgiven), hverified]
    simp [Report.behind, Report.success, after]
  · have hbefore : run m ⟨false, rootWord, .stamp given excludeTests⟩ =
        stampedReport r.tree false (m.declareArtifact root none excludeTests).log
          declared.descriptor (directory.child Block.fileName) :=
      run_stamp_of_writeBlock hgivenRoot hout hdeclared hdirectory hwrite false
    have hsame : after.declareArtifact root none excludeTests =
        m.declareArtifact root none excludeTests :=
      (Machine.declareArtifact_of_writeBlock hdeclared hwrite happart).2
    rw [answer_of_parse (parse_stamp hroot hgiven), hsettled.stamp, hsame, ← hrun, hbefore]

theorem isOperand_here : IsOperand "." := by
  intro name
  cases name <;> decide +kernel

theorem not_sameFile_of_locate {p q : Pathname} {l l' : Location} {n n' : Node} (hne : l ≠ l')
    (hp : m.locate true p = .ok (.found l n)) (hq : m.locate true q = .ok (.found l' n')) :
    ¬ m.SameFile p q := by
  rintro ⟨last, data, hp', hq'⟩
  rw [hp, Except.ok.injEq, Place.found.injEq] at hp'
  rw [hq, Except.ok.injEq, Place.found.injEq] at hq'
  exact hne (hp'.1.trans hq'.1.symm)

/-- Stamping with the configuration of the sample artifact, wherever it stands. -/
theorem answer_stamp_sample {l : Location} {tree : FileTree}
    (hparse : parse ["stamp", rootWord] = .ok ⟨false, rootWord, .stamp none none⟩)
    (hroot : givenPath m rootWord = .ok root)
    (hfile : m.node (Config.fileUnder root) = .ok (.file Stamping.sampleText.toUTF8))
    (hdirectory : m.resolveOutput root BuildSettings.defaultOutputDirectory = .ok l)
    (hwrite : m.writeBlock (.ofLocation l) Stamping.sampleDescriptor = (tree, .ok ())) :
    artifactsDirectory m root none = .ok (.ofLocation l) ∧
      ∃ r, answer m ["stamp", rootWord] = .ok r ∧ r.ending = .exit 0 ∧ r.tree = tree := by
  obtain ⟨declared, hdeclared, hd, hout⟩ := Machine.declareArtifact_sampleText hfile hdirectory
  rw [← hd] at hwrite
  refine ⟨(artifactsDirectory_eq_ok_iff hdeclared).mpr ⟨none, rfl, hout⟩, _,
    answer_of_parse hparse, ?_, ?_⟩
  · rw [run_stamp_of_writeBlock hroot rfl hdeclared hout hwrite]
    rfl
  · rw [run_stamp_of_writeBlock hroot rfl hdeclared hout hwrite]
    rfl

/-- Every command agrees on the sample artifact once it is stamped. -/
theorem commands_agree_on_sample :
    ∃ r, answer plainSample ["stamp", "."] = .ok r ∧ r.ending = .exit 0 ∧
      { plainSample with tree := r.tree }.HasFreshScratch ∧
      answer { plainSample with tree := r.tree } ["validate", ".", "--strict-schema-version"] =
        .ok ⟨r.tree, "", [], .exit 0⟩ ∧
      (∃ output, answer { plainSample with tree := r.tree } ["show", "."] =
        .ok ⟨r.tree, output, [], .exit 0⟩) ∧
      (∃ notices, answer { plainSample with tree := r.tree } ["verify", "."] =
        .ok ⟨r.tree, "", notices, .exit 0⟩) ∧
      answer { plainSample with tree := r.tree } ["stamp", "."] = .ok r := by
  have hparse : parse ["stamp", "."] = .ok ⟨false, ".", .stamp none none⟩ := by decide +kernel
  have hroot : givenPath plainSample "." = .ok ⟨true, ["art"]⟩ := rfl
  have hfile : plainSample.node (Config.fileUnder ⟨true, ["art"]⟩) =
      .ok (.file Stamping.sampleText.toUTF8) := rfl
  have hout : plainSample.resolveOutput ⟨true, ["art"]⟩ BuildSettings.defaultOutputDirectory =
      .ok ["art", ".descriptor"] := rfl
  have hwrite : plainSample.writeBlock (.ofLocation ["art", ".descriptor"]) Stamping.sampleDescriptor =
      (Machine.settledSample.tree, .ok ()) := rfl
  obtain ⟨hresolved, r, hstamp, hexit, htree⟩ := answer_stamp_sample hparse hroot hfile hout hwrite
  have hafter : { plainSample with tree := r.tree } = Machine.settledSample := by
    rw [htree]
    rfl
  have hfresh : { plainSample with tree := r.tree }.HasFreshScratch := by
    rw [hafter]
    exact Machine.settledSample_hasFreshScratch
  have happart (root directory : Pathname) (hroot' : givenPath plainSample "." = .ok root)
      (hdirectory : artifactsDirectory plainSample root none = .ok directory) :
      ¬ { plainSample with tree := r.tree }.SameFile (directory.child Block.fileName)
        (Config.fileUnder root) := by
    obtain rfl := Except.ok.inj (hroot.symm.trans hroot')
    obtain rfl := Except.ok.inj (hresolved.symm.trans hdirectory)
    rw [hafter]
    have hne : ["art", ".descriptor", "descriptor.json"] ≠ ["art", "descriptor.toml"] := by decide
    exact not_sameFile_of_locate (n := .file (Block.bytes Stamping.sampleDescriptor)) hne rfl rfl
  have hnone : ∀ w ∈ (none : Option String), IsOperand w := by
    intro w hw
    cases hw
  have hwords : answer plainSample ("stamp" :: "." ::
      (directoryWords .outputDirectory none ++ testsWords none)) = .ok r := hstamp
  obtain ⟨root, directory, data, _, _, _, hvalidate, ⟨output, hshow, _⟩, hverify, hagain⟩ :=
    commands_agree_after_stamping isOperand_here hnone hwords hexit hfresh happart
  exact ⟨r, hstamp, hexit, hfresh, hvalidate, ⟨output, hshow⟩, hverify, hagain⟩

/-- An artifact whose configuration is a link to the place of the block. -/
def linkedSample : Machine :=
  .sample
    [(["art", ".descriptor"], .directory),
      (["art", ".descriptor", "descriptor.json"], .file Stamping.sampleText.toUTF8),
      (["art", "descriptor.toml"], .link ".descriptor/descriptor.json")]

/-- The same artifact once it is stamped. -/
def overwrittenSample : Machine :=
  .sample
    [(["art", ".descriptor"], .directory),
      (["art", ".descriptor", "descriptor.json"], .file (Block.bytes Stamping.sampleDescriptor)),
      (["art", "descriptor.toml"], .link ".descriptor/descriptor.json")]

/-- An artifact in a directory whose name is a switch of one command, though not of all. -/
def switchSample : Machine :=
  .sample
    [(["art", "--field=a b"], .directory),
      (["art", "--field=a b", "descriptor.toml"], .file Stamping.sampleText.toUTF8)]

/-- The same artifact once it is stamped. -/
def switchStamped : Machine :=
  .sample
    [(["art", "--field=a b"], .directory),
      (["art", "--field=a b", "descriptor.toml"], .file Stamping.sampleText.toUTF8),
      (["art", "--field=a b", ".descriptor"], .directory),
      (["art", "--field=a b", ".descriptor", "descriptor.json"],
        .file (Block.bytes Stamping.sampleDescriptor))]

/-- A configuration over which a block has been written is refused by every command that asks it for the
directory. -/
theorem validate_of_overwritten {d : Descriptor} (hroot : givenPath m rootWord = .ok root)
    (hconfig : m.node (Config.fileUnder root) = .ok (.file (Block.bytes d))) (verbose strict : Bool) :
    (run m ⟨verbose, rootWord, .validate none strict⟩).ending = .exit 1 := by
  have hread : m.read (Config.fileUnder root) = .ok (Block.bytes d) := Machine.read_eq_ok_iff.mpr hconfig
  have hthere : m.isFile (Config.fileUnder root) = true := Machine.isFile_iff.mpr ⟨_, hconfig⟩
  have hload : m.loadConfig root = .error (.config (.notToml (Config.fileUnder root))) := by
    simp only [Machine.loadConfig, hthere, hread, if_true, Config.ofBytes_block]
  have hresolved : artifactsDirectory m root none =
      .error (.config (.notToml (Config.fileUnder root))) := by
    rw [artifactsDirectory, hload]
    rfl
  simp only [run, hroot, onDirectory, hresolved]
  rfl

/-- Commands that do not agree after a stamping: the block, which is a file of its own and no link, was
written over the file that the configuration is a link to; and the root reads as a switch. -/
theorem commands_disagree_after_stamping :
    (∃ r r', linkedSample.locate false ⟨true, ["art", ".descriptor", "descriptor.json"]⟩ =
        .ok (.found ["art", ".descriptor", "descriptor.json"] (.file Stamping.sampleText.toUTF8)) ∧
      answer linkedSample ["stamp", "."] = .ok r ∧ r.ending = .exit 0 ∧
      answer { linkedSample with tree := r.tree } ["validate", ".", "--strict-schema-version"] =
        .ok r' ∧ r'.ending = .exit 1) ∧
    ∃ r r', answer switchSample ["stamp", "--field=a b"] = .ok r ∧ r.ending = .exit 0 ∧
      answer { switchSample with tree := r.tree } ["show", "--field=a b"] = .ok r' ∧
      r'.ending = .exit 1 := by
  refine ⟨?_, ?_⟩
  · have hparse : parse ["stamp", "."] = .ok ⟨false, ".", .stamp none none⟩ := by decide +kernel
    have hparse' : parse ["validate", ".", "--strict-schema-version"] =
        .ok ⟨false, ".", .validate none true⟩ := by decide +kernel
    have hroot : givenPath linkedSample "." = .ok ⟨true, ["art"]⟩ := rfl
    have hfile : linkedSample.node (Config.fileUnder ⟨true, ["art"]⟩) =
        .ok (.file Stamping.sampleText.toUTF8) := rfl
    have hout : linkedSample.resolveOutput ⟨true, ["art"]⟩ BuildSettings.defaultOutputDirectory =
        .ok ["art", ".descriptor"] := rfl
    have hwrite : linkedSample.writeBlock (.ofLocation ["art", ".descriptor"])
        Stamping.sampleDescriptor = (overwrittenSample.tree, .ok ()) := rfl
    obtain ⟨_, r, hstamp, hexit, htree⟩ := answer_stamp_sample hparse hroot hfile hout hwrite
    have hafter : { linkedSample with tree := r.tree } = overwrittenSample := by
      rw [htree]
      rfl
    have hroot' : givenPath overwrittenSample "." = .ok ⟨true, ["art"]⟩ := rfl
    have hconfig : overwrittenSample.node (Config.fileUnder ⟨true, ["art"]⟩) =
        .ok (.file (Block.bytes Stamping.sampleDescriptor)) := rfl
    have hblock : linkedSample.locate false ⟨true, ["art", ".descriptor", "descriptor.json"]⟩ =
        .ok (.found ["art", ".descriptor", "descriptor.json"]
          (.file Stamping.sampleText.toUTF8)) := rfl
    refine ⟨r, run overwrittenSample ⟨false, ".", .validate none true⟩, hblock, hstamp, hexit, ?_,
      validate_of_overwritten hroot' hconfig false true⟩
    rw [hafter]
    exact answer_of_parse hparse'
  · have hparse : parse ["stamp", "--field=a b"] = .ok ⟨false, "--field=a b", .stamp none none⟩ := by
      decide +kernel
    have hparse' : parse ["show", "--field=a b"] = .ok ⟨false, ".", .display none (some "a b")⟩ := by
      decide +kernel
    have hroot : givenPath switchSample "--field=a b" = .ok ⟨true, ["art", "--field=a b"]⟩ := rfl
    have hfile : switchSample.node (Config.fileUnder ⟨true, ["art", "--field=a b"]⟩) =
        .ok (.file Stamping.sampleText.toUTF8) := rfl
    have hout : switchSample.resolveOutput ⟨true, ["art", "--field=a b"]⟩
        BuildSettings.defaultOutputDirectory = .ok ["art", "--field=a b", ".descriptor"] := rfl
    have hwrite : switchSample.writeBlock (.ofLocation ["art", "--field=a b", ".descriptor"])
        Stamping.sampleDescriptor = (switchStamped.tree, .ok ()) := rfl
    obtain ⟨_, r, hstamp, hexit, htree⟩ := answer_stamp_sample hparse hroot hfile hout hwrite
    have hafter : { switchSample with tree := r.tree } = switchStamped := by
      rw [htree]
      rfl
    refine ⟨r, run switchStamped ⟨false, ".", .display none (some "a b")⟩, hstamp, hexit, ?_, ?_⟩
    · rw [hafter]
      exact answer_of_parse hparse'
    · have hroot' : givenPath switchStamped "." = .ok ⟨true, ["art"]⟩ := rfl
      have hresolved : artifactsDirectory switchStamped ⟨true, ["art"]⟩ none =
          .ok ⟨true, ["art", ".descriptor"]⟩ := rfl
      have hnone : switchStamped.isFile ⟨true, ["art", ".descriptor", "descriptor.json"]⟩ = false := rfl
      have hload : switchStamped.load ⟨true, ["art", ".descriptor"]⟩ =
          .error (.noBlock ⟨true, ["art", ".descriptor", "descriptor.json"]⟩) := by
        rw [Machine.load]
        simp only [Pathname.child, Block.fileName, List.cons_append, List.nil_append, hnone]
        rfl
      simp only [run, hroot', onDirectory, hresolved, runDisplay, hload]
      rfl

end CommandLine

end ArtifactIdentity
