import ArtifactIdentity.Proofs.OutputDirectory

/-!
# What stamping changes lies within the artifact

The output directory that a configuration names is resolved before it is used, and has to lie within the
resolved root. Where its path does not go in circles no link stands on the way to it, so the directories that
are made lie within the root as well; and so does the block, unless a link in its place leads elsewhere. Both
conditions are needed: a path that goes in circles is read as it is written, links and all, and a link in the
place of the block is followed when the block is written.
-/

namespace ArtifactIdentity.Machine

open FileTree

variable {m : Machine} {root : Pathname} {top out l : Location} {t : FileTree} {config : Config}
  {excludeTests : Option Bool} {d : Descriptor}

/-! ## The output directory -/

/-- The root of an artifact that has a configuration is resolved to a directory. -/
theorem directory_of_config {data : ByteArray} (htree : m.tree.Grounded)
    (hfile : m.node (Config.fileUnder root) = .ok (.file data)) (htop : m.resolve root = .ok top) :
    m.tree.get? top = some .directory := by
  obtain ⟨_, hlocate⟩ := node_eq_ok_iff.mp hfile
  have hname : IsEntryName Config.fileName := by decide
  obtain ⟨last, hroot, k, -, hentry⟩ := locate_of_child hname hlocate
  obtain rfl := eq_of_resolve htop hroot
  obtain ⟨child, hchild⟩ := hentry.exists_child ⟨hname.1, hname.2.1⟩
  exact htree _ _ _ hchild

/-! ## What is made and written -/

/-- On a straight way nothing but the locations along it is made into a directory, where nothing was. -/
theorem made_of_changed (hmakes : m.Makes (.ofLocation out) t) (hout : m.tree.Straight out)
    (hchanged : t.get? l ≠ m.tree.get? l) : l <+: out ∧ m.tree.get? l = none := by
  rcases hmakes.get? l with hsame | ⟨hnone, -, parts, hparts, hlocate⟩
  · exact absurd hsame hchanged
  · have hstraight : (m.withTree t).tree.Straight parts :=
      (hout.above hparts).congr hmakes.sameLinks
    obtain rfl : l = parts := location_of_locate hlocate hstraight
    exact ⟨hparts, hnone⟩

/-- Directories that are made on a straight way through a directory are made below it. -/
theorem prefix_of_makes (htree : m.tree.Grounded) (hmakes : m.Makes (.ofLocation out) t)
    (hout : m.tree.Straight out) (htop : m.tree.get? top = some .directory) (hinside : top <+: out)
    (hchanged : t.get? l ≠ m.tree.get? l) : top <+: l := by
  obtain ⟨hparts, hnone⟩ := made_of_changed hmakes hout hchanged
  rcases List.prefix_or_prefix_of_prefix hparts hinside with habove | hbelow
  · -- What is above the directory was there.
    rw [htree.directory_above htop habove] at hnone
    cases hnone
  · exact hbelow

/-- Where a straight way leads to a directory nothing is made along it. -/
theorem Makes.eq_of_directory (htree : m.tree.Grounded) (hmakes : m.Makes (.ofLocation out) t)
    (hout : m.tree.Straight out) (hdirectory : m.tree.get? out = some .directory) : t = m.tree := by
  induction hmakes with
  | refl => rfl
  | @make t parts l' _ hparts hvacant ih =>
    subst ih
    obtain rfl : l' = parts := location_of_locate hvacant (hout.above hparts)
    obtain ⟨_, k, _, hleads⟩ := locate_eq_ok_iff.mp hvacant
    have hnone := hleads.get?_vacant.2
    rw [withTree_tree, htree.directory_above hdirectory hparts] at hnone
    cases hnone

/-- A block is written within a directory around it: where a link stands in its place, provided that the link
leads there. -/
theorem exists_block (htree : m.tree.Grounded) (hout : m.tree.Straight out) (hinside : top <+: out)
    (hblock : ∀ target place, m.tree.get? (out ++ [Block.fileName]) = some (.link target) →
      m.locate true ((Pathname.ofLocation out).child Block.fileName) = .ok place → top <+: place.location)
    (hwrite : m.writeBlock (.ofLocation out) d = (t, .ok ())) :
    ∃ t₀ block, m.Makes (.ofLocation out) t₀ ∧ t = t₀.insert block (.file (Block.bytes d)) ∧
      top <+: block ∧
        (m.withTree t).locate true ((Pathname.ofLocation out).child Block.fileName) =
          .ok (.found block (.file (Block.bytes d))) := by
  have hmakes := makes_ensureDirectories m (.ofLocation out)
  unfold writeBlock at hwrite
  split at hwrite
  · cases hwrite
  rename_i t₀ hmade
  rw [hmade] at hmakes
  split at hwrite
  · rename_i t₁ hfile
    obtain rfl : t₁ = t := congrArg Prod.fst hwrite
    obtain ⟨place, hbefore, htree', hafter⟩ := exists_place_of_write hfile
    refine ⟨t₀, place.location, hmakes, htree', ?_, hafter⟩
    by_cases hlink : ∃ target, m.tree.get? (out ++ [Block.fileName]) = some (.link target)
    · -- The link stands in the output directory, which was there.
      obtain ⟨target, htarget⟩ := hlink
      obtain rfl := hmakes.eq_of_directory htree hout (htree _ _ _ htarget)
      exact hblock target place htarget hbefore
    · have hstraight : m.tree.Straight (out ++ [Block.fileName]) :=
        hout.concat (by decide) (by decide) fun target htarget => hlink ⟨target, htarget⟩
      have hplace : place.location = out ++ [Block.fileName] :=
        location_of_locate hbefore (hstraight.congr hmakes.sameLinks)
      rw [hplace]
      exact hinside.trans (List.prefix_append out _)
  · cases hwrite

/-- A block that is written or tried changes locations below the directory around it alone. -/
theorem prefix_of_writeBlock (htree : m.tree.Grounded) (hout : m.tree.Straight out)
    (htop : m.tree.get? top = some .directory) (hinside : top <+: out)
    (hblock : ∀ target place, m.tree.get? (out ++ [Block.fileName]) = some (.link target) →
      m.locate true ((Pathname.ofLocation out).child Block.fileName) = .ok place → top <+: place.location)
    (hchanged : (m.writeBlock (.ofLocation out) d).1.get? l ≠ m.tree.get? l) : top <+: l := by
  rcases hwrite : m.writeBlock (.ofLocation out) d with ⟨t, e | ⟨⟩⟩
  · rw [hwrite] at hchanged
    exact prefix_of_makes htree (writeBlock_eq_error hwrite) hout htop hinside hchanged
  · rw [hwrite] at hchanged
    obtain ⟨t₀, block, hmakes, rfl, hbelow, -⟩ := exists_block htree hout hinside hblock hwrite
    by_cases hl : l = block
    · rw [hl]
      exact hbelow
    · simp only [get?_insert_of_ne t₀ hl] at hchanged
      exact prefix_of_makes htree hmakes hout htop hinside hchanged

/-! ## Stamping -/

/-- What stands around the output directory of a configuration when its artifact is stamped. -/
theorem exists_output {declared : Declared} {directory : Pathname} (htree : m.tree.Grounded)
    (hload : m.loadConfig root = .ok config)
    (hloop : ∀ top out, m.resolve root = .ok top →
      m.resolveOutput root config.build.outputDirectory = .ok out →
        m.Loops (.ofLocation top ++ .ofString config.build.outputDirectory) → m.tree.Straight out)
    (hdeclared : (m.declareArtifact root none excludeTests).result = .ok declared)
    (hdirectory : m.outputDirectory root none declared.config = .ok directory) :
    ∃ top out, m.resolve root = .ok top ∧ directory = .ofLocation out ∧
      m.resolveOutput root config.build.outputDirectory = .ok out ∧ top <+: out ∧
        m.tree.get? top = some .directory ∧ m.tree.Straight out := by
  obtain rfl : config = declared.config :=
    Except.ok.inj (hload.symm.trans (loadConfig_of_declareArtifact hdeclared))
  obtain ⟨data, hfile⟩ := exists_config_file hdeclared
  rw [outputDirectory] at hdirectory
  cases hout : m.resolveOutput root declared.config.build.outputDirectory with
  | error e =>
    rw [hout] at hdirectory
    cases hdirectory
  | ok out =>
    rw [hout] at hdirectory
    obtain rfl := Except.ok.inj hdirectory
    obtain ⟨-, top, htop, hresolve, hinside⟩ := resolveOutput_eq_ok_iff.mp hout
    refine ⟨top, out, htop, rfl, rfl, hinside.1, directory_of_config htree hfile htop, ?_⟩
    by_cases hcircles : m.Loops (.ofLocation top ++ .ofString declared.config.build.outputDirectory)
    · exact hloop top out htop hout hcircles
    · exact straight_of_resolve (absolute_outputPath top _) hcircles hresolve

/-- **An artifact that is stamped into the directory of its configuration is changed within its resolved root
alone, whether the stamping succeeds or fails, and its block comes to lie there: provided that no link stands
on the directory that a path in circles is read as, and that a link in the place of the block leads there.** -/
theorem stamp_confined (excludeTests : Option Bool) (htree : m.tree.Grounded)
    (hload : m.loadConfig root = .ok config)
    (hloop : ∀ top out, m.resolve root = .ok top →
      m.resolveOutput root config.build.outputDirectory = .ok out →
        m.Loops (.ofLocation top ++ .ofString config.build.outputDirectory) → m.tree.Straight out)
    (hblock : ∀ top out target place, m.resolve root = .ok top →
      m.resolveOutput root config.build.outputDirectory = .ok out →
        m.tree.get? (out ++ [Block.fileName]) = some (.link target) →
          m.locate true ((Pathname.ofLocation out).child Block.fileName) = .ok place →
            top <+: place.location) :
    let change := m.stamp root none none excludeTests
    (∀ l, change.tree.get? l ≠ m.tree.get? l → ∃ top, m.resolve root = .ok top ∧ top <+: l) ∧
      ∀ stamped, change.result = .ok stamped →
        ∃ top block, m.resolve root = .ok top ∧ top <+: block ∧
          (m.withTree change.tree).locate true stamped.block =
            .ok (.found block (.file (Block.bytes stamped.descriptor))) := by
  intro change
  refine ⟨?_, ?_⟩
  · intro l hchanged
    rcases stamp_tree m root none none excludeTests with hsame | ⟨declared, directory, hd, hdirectory, hwrite⟩
    · exact absurd (congrArg (FileTree.get? · l) hsame) hchanged
    · obtain ⟨top, out, htop, rfl, hout, hinside, hthere, hstraight⟩ :=
        exists_output htree hload hloop hd hdirectory
      refine ⟨top, htop, ?_⟩
      rw [show change.tree = _ from hwrite] at hchanged
      exact prefix_of_writeBlock htree hstraight hthere hinside
        (fun target place => hblock top out target place htop hout) hchanged
  · intro stamped hstamped
    obtain ⟨declared, directory, hd, hdirectory, hwrite, rfl⟩ := stamp_eq_ok hstamped
    obtain ⟨top, out, htop, rfl, hout, hinside, -, hstraight⟩ :=
      exists_output htree hload hloop hd hdirectory
    obtain ⟨_, block, -, -, hbelow, hlocate⟩ := exists_block htree hstraight hinside
      (fun target place => hblock top out target place htop hout) hwrite
    exact ⟨top, block, htop, hbelow, hlocate⟩

/-! ## Samples -/

/-- The sample artifact with a link in the place of its block that stays within the artifact. -/
def keptBlockSample : Machine :=
  sample
    [(["art", "descriptor.toml"], .file Stamping.sampleText.toUTF8), (["art", ".descriptor"], .directory),
      (["art", ".descriptor", "descriptor.json"], .link "../kept.json")]

/-- That artifact is changed within its root alone, and its block comes to lie where the link leads. -/
theorem stamp_confined_on_sample :
    ∃ stamped block, (keptBlockSample.stamp ⟨true, ["art"]⟩ none none none).result = .ok stamped ∧
      ["art"] <+: block ∧
      (keptBlockSample.withTree (keptBlockSample.stamp ⟨true, ["art"]⟩ none none none).tree).locate true
          stamped.block = .ok (.found block (.file (Block.bytes Stamping.sampleDescriptor))) ∧
      ∀ l, (keptBlockSample.stamp ⟨true, ["art"]⟩ none none none).tree.get? l ≠
        keptBlockSample.tree.get? l → ["art"] <+: l := by
  have hfile : keptBlockSample.node (Config.fileUnder ⟨true, ["art"]⟩) =
      .ok (.file Stamping.sampleText.toUTF8) := rfl
  have htop : keptBlockSample.resolve ⟨true, ["art"]⟩ = .ok ["art"] := rfl
  have houtput : keptBlockSample.resolveOutput ⟨true, ["art"]⟩ BuildSettings.default.outputDirectory =
      .ok ["art", ".descriptor"] := rfl
  have hplace : keptBlockSample.locate true
      ((Pathname.ofLocation ["art", ".descriptor"]).child Block.fileName) =
        .ok (.vacant ["art", "kept.json"]) := rfl
  have hwrite : keptBlockSample.writeBlock (.ofLocation ["art", ".descriptor"]) Stamping.sampleDescriptor =
      (keptBlockSample.tree.insert ["art", "kept.json"] (.file (Block.bytes Stamping.sampleDescriptor)),
        .ok ()) := rfl
  have htree : keptBlockSample.tree.Grounded := by
    apply grounded_of_entries
    simp only [keptBlockSample, sample, List.forall_mem_cons]
    exact ⟨rfl, rfl, rfl, rfl, rfl, by simp⟩
  obtain ⟨declared, hdeclared, hd, hdirectory⟩ := declareArtifact_sampleText hfile houtput
  obtain ⟨made, hmade, -, hbuild⟩ := declareArtifact_of_declaredBy hfile Stamping.declaredBy?_sampleText
  obtain rfl := Except.ok.inj (hdeclared.symm.trans hmade)
  rw [← hd] at hwrite
  have hresult := congrArg Change.result (stamp_of_writeBlock hdeclared hdirectory hwrite)
  have hloop : ∀ top out, keptBlockSample.resolve ⟨true, ["art"]⟩ = .ok top →
      keptBlockSample.resolveOutput ⟨true, ["art"]⟩ declared.config.build.outputDirectory = .ok out →
        keptBlockSample.Loops (.ofLocation top ++ .ofString declared.config.build.outputDirectory) →
          keptBlockSample.tree.Straight out := by
    rintro top out htop' - ⟨text, hlooped⟩
    obtain rfl := Except.ok.inj (htop.symm.trans htop')
    rw [hbuild] at hlooped
    cases hlooped
  have hblock : ∀ top out target place, keptBlockSample.resolve ⟨true, ["art"]⟩ = .ok top →
      keptBlockSample.resolveOutput ⟨true, ["art"]⟩ declared.config.build.outputDirectory = .ok out →
        keptBlockSample.tree.get? (out ++ [Block.fileName]) = some (.link target) →
          keptBlockSample.locate true ((Pathname.ofLocation out).child Block.fileName) = .ok place →
            top <+: place.location := by
    intro top out target place htop' hout _ hplace'
    rw [hbuild] at hout
    obtain rfl := Except.ok.inj (htop.symm.trans htop')
    obtain rfl := Except.ok.inj (houtput.symm.trans hout)
    obtain rfl := Except.ok.inj (hplace.symm.trans hplace')
    exact ⟨["kept.json"], rfl⟩
  obtain ⟨hchanged, hstamped⟩ := stamp_confined none htree
    (loadConfig_of_declareArtifact hdeclared) hloop hblock
  obtain ⟨top, block, htop', hinside, hlocate⟩ := hstamped _ hresult
  obtain rfl := Except.ok.inj (htop.symm.trans htop')
  rw [hd] at hlocate
  refine ⟨_, block, hresult, hinside, hlocate, ?_⟩
  intro l hl
  obtain ⟨top, htop', hbelow⟩ := hchanged l hl
  obtain rfl := Except.ok.inj (htop.symm.trans htop')
  exact hbelow

/-- The sample artifact with a link in the place of its block that leads out of the artifact. -/
def linkedBlockSample : Machine :=
  sample
    [(["art", "descriptor.toml"], .file Stamping.sampleText.toUTF8), (["art", ".descriptor"], .directory),
      (["art", ".descriptor", "descriptor.json"], .link "../../outside.json"),
      (["outside.json"], .file "kept".toUTF8)]

/-- The sample configuration with an output directory whose path goes through a link to itself. -/
def circlingText : String :=
  Stamping.sampleText ++ "[build]\noutput_dir='loop/../x'\n"

/-- An artifact with that configuration. What follows the link in the path is itself a link, out of the root. -/
def circlingSample : Machine :=
  sample
    [(["art", "descriptor.toml"], .file circlingText.toUTF8), (["art", "loop"], .link "loop"),
      (["art", "x"], .link "../away"), (["away"], .directory)]

theorem declaredBy?_circlingText :
    Stamping.declaredBy? circlingText = some (Stamping.sampleDescriptor, ⟨false, "loop/../x"⟩) := by
  decide +kernel

/-- Without the conditions stamping changes files outside of the root: a link in the place of the block is
followed to another file, and a path that goes in circles is read as it is written and leads through a link. -/
theorem stamp_leaves_root :
    (linkedBlockSample.resolve ⟨true, ["art"]⟩ = .ok ["art"] ∧ ¬ ["art"] <+: ["outside.json"] ∧
        linkedBlockSample.tree.get? ["outside.json"] = some (.file "kept".toUTF8) ∧
        (linkedBlockSample.stamp ⟨true, ["art"]⟩ none none none).tree.get? ["outside.json"] =
          some (.file (Block.bytes Stamping.sampleDescriptor))) ∧
      circlingSample.resolve ⟨true, ["art"]⟩ = .ok ["art"] ∧ ¬ ["art"] <+: ["away", "descriptor.json"] ∧
        circlingSample.tree.get? ["away", "descriptor.json"] = none ∧
        (circlingSample.stamp ⟨true, ["art"]⟩ none none none).tree.get? ["away", "descriptor.json"] =
          some (.file (Block.bytes Stamping.sampleDescriptor)) := by
  refine ⟨⟨rfl, by decide, rfl, ?_⟩, rfl, by decide, rfl, ?_⟩
  · have hfile : linkedBlockSample.node (Config.fileUnder ⟨true, ["art"]⟩) =
        .ok (.file Stamping.sampleText.toUTF8) := rfl
    have houtput : linkedBlockSample.resolveOutput ⟨true, ["art"]⟩
        BuildSettings.defaultOutputDirectory = .ok ["art", ".descriptor"] := rfl
    have hwrite : linkedBlockSample.writeBlock (.ofLocation ["art", ".descriptor"])
        Stamping.sampleDescriptor =
          (linkedBlockSample.tree.insert ["outside.json"] (.file (Block.bytes Stamping.sampleDescriptor)),
            .ok ()) := rfl
    obtain ⟨declared, hdeclared, hd, hdirectory⟩ := declareArtifact_sampleText hfile houtput
    rw [← hd] at hwrite
    rw [stamp_of_writeBlock hdeclared hdirectory hwrite, hd]
    exact get?_insert_self _ (by decide) _
  · have hfile : circlingSample.node (Config.fileUnder ⟨true, ["art"]⟩) =
        .ok (.file circlingText.toUTF8) := rfl
    have houtput : circlingSample.resolveOutput ⟨true, ["art"]⟩ "loop/../x" = .ok ["art", "x"] := by
      apply eq_ok_of_toOption
      decide +kernel
    have hwrite : circlingSample.writeBlock (.ofLocation ["art", "x"]) Stamping.sampleDescriptor =
        (circlingSample.tree.insert ["away", "descriptor.json"]
          (.file (Block.bytes Stamping.sampleDescriptor)), .ok ()) := rfl
    obtain ⟨declared, hdeclared, hd, hbuild⟩ := declareArtifact_of_declaredBy hfile declaredBy?_circlingText
    have hdirectory : circlingSample.outputDirectory ⟨true, ["art"]⟩ none declared.config =
        .ok (.ofLocation ["art", "x"]) := by
      rw [outputDirectory, hbuild]
      simp only [houtput]
      rfl
    rw [← hd] at hwrite
    rw [stamp_of_writeBlock hdeclared hdirectory hwrite, hd]
    exact get?_insert_self _ (by decide) _

end ArtifactIdentity.Machine
