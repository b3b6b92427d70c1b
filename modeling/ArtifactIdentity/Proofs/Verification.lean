import ArtifactIdentity.Proofs.Files.Unheard
import ArtifactIdentity.Proofs.Stamping
import ArtifactIdentity.Verification

/-!
# What a verification compares

The directory for passing use is made at a free place and removed again, so a verification leaves the files as
they were, whatever happens in between. Where its name stands in no link either, stamping into it changes no
walk from the directory that is verified. The two directories are then compared in their block files alone, and
the result is that of comparing one file with the block of the descriptor that is declared now.
-/

namespace ArtifactIdentity

/-- A directory compared with a descriptor by the one file that counts. -/
def Comparison.ofNode (node : Except FileError Node) (d : Descriptor) : Comparison :=
  match node with
  | .ok (.file data) =>
    if data.data = (Block.bytes d).data then {} else { mismatches := [Block.fileName] }
  | _ => { missing := [Block.fileName] }

namespace Comparison

variable {node : Except FileError Node} {d : Descriptor}

theorem ok_ofNode : (ofNode node d).ok = true ↔ node = .ok (.file (Block.bytes d)) := by
  unfold ofNode
  split
  · rename_i data
    split
    · rename_i hdata
      have hsame : data = Block.bytes d := ByteArray.ext hdata
      simp [Comparison.ok, hsame]
    · rename_i hdata
      have hother : data ≠ Block.bytes d := by
        intro hsame
        exact hdata (congrArg ByteArray.data hsame)
      simp [Comparison.ok, hother]
  · rename_i hfile
    simp only [Comparison.ok, List.isEmpty_cons, Bool.false_and, Bool.false_eq_true, false_iff]
    intro hnode
    exact hfile _ hnode

theorem missing_ofNode :
    (ofNode node d).missing = [Block.fileName] ↔ ∀ data, node ≠ .ok (.file data) := by
  unfold ofNode
  split
  · split <;> simp
  · rename_i hfile
    simpa using hfile

theorem mismatches_ofNode :
    (ofNode node d).mismatches = [Block.fileName] ↔
      ∃ data, node = .ok (.file data) ∧ data ≠ Block.bytes d := by
  unfold ofNode
  split
  · rename_i data
    split
    · rename_i hdata
      have hsame : data = Block.bytes d := ByteArray.ext hdata
      simp [hsame]
    · rename_i hdata
      have hother : data ≠ Block.bytes d := by
        intro hsame
        exact hdata (congrArg ByteArray.data hsame)
      simp [hother]
  · rename_i hfile
    simp only [List.ne_cons_self, false_iff]
    rintro ⟨data, hnode, _⟩
    exact hfile data hnode

theorem extra_ofNode : (ofNode node d).extra = [] := by
  unfold ofNode
  split
  · split <;> rfl
  · rfl

end Comparison

namespace FileTree

variable {t : FileTree} {l l' : Location} {n : Node}

theorem isFree_iff : t.isFree l = true ↔ ∀ e ∈ t.entries, ¬ l <+: e.1 := by
  simp only [isFree, List.all_eq_true, Bool.not_eq_true', ← Bool.not_eq_true, List.isPrefixOf_iff_prefix]

theorem get?_of_isFree (h : t.isFree l = true) (hl' : l' ≠ []) (hbelow : l <+: l') : t.get? l' = none := by
  cases hnode : t.get? l' with
  | none => rfl
  | some n => exact absurd hbelow (isFree_iff.mp h _ (mem_entries_of_get? hl' hnode))

/-- Below a name that nothing has heard of there is nothing. -/
theorem Unheard.isFree {top : Location} {name : String} (h : t.Unheard top name) :
    t.isFree (top ++ [name]) = true := by
  rw [isFree_iff]
  intro e he hbelow
  have hnone := h.node e.1 hbelow
  have hroot : e.1 ≠ [] := by
    intro hnil
    rw [hnil] at hbelow
    exact not_prefix_nil hbelow
  rw [get?, if_neg hroot, List.lookup_eq_none_iff] at hnone
  simpa using hnone e he

/-- Where nothing is, nothing is erased. -/
theorem erase_of_isFree (h : t.isFree l = true) : t.erase l = t := by
  have hkept : t.entries.filter (fun e => !l.isPrefixOf e.1) = t.entries := by
    rw [List.filter_eq_self]
    exact List.all_eq_true.mp h
  rw [erase, hkept]

/-- What was put at a location or below is erased with it. -/
theorem erase_insert_of_prefix (h : l <+: l') (n : Node) : (t.insert l' n).erase l = t.erase l := by
  have hkey : l.isPrefixOf l' = true := List.isPrefixOf_iff_prefix.mpr h
  have hentries (entries : List (Location × Node)) :
      (Table.set l' n entries).filter (fun e => !l.isPrefixOf e.1) =
        entries.filter fun e => !l.isPrefixOf e.1 := by
    induction entries with
    | nil => simp [Table.set, hkey]
    | cons e rest ih =>
      obtain ⟨key, old⟩ := e
      by_cases hsame : key = l'
      · simp [Table.set, hsame, hkey]
      · simp [Table.set, hsame, List.filter_cons, ih]
  rw [erase, erase, insert, hentries]

end FileTree

namespace Machine

variable {m : Machine} {root directory : Pathname} {excludeTests : Option Bool}

/-! ## The directory for passing use -/

/-- The directory for passing use is yet to be made: its name, which no link has heard of, is free in a
directory that is there. -/
structure ScratchAt (m : Machine) (above : Pathname) (name : String) (top : Location) : Prop where
  scratch : m.scratch = above.child name
  directory : m.locate true above = .ok (.found top .directory)
  entry : IsEntryName name
  ne_fileName : name ≠ Block.fileName
  unheard : m.tree.Unheard top name
  current : ¬ top ++ [name] <+: m.current

/-- The directory for passing use is fresh. -/
def HasFreshScratch (m : Machine) : Prop :=
  ∃ above name top, m.ScratchAt above name top

section Scratch

variable {above : Pathname} {name : String} {top place : Location}

theorem scratchPlace_eq_ok_iff :
    m.scratchPlace = .ok place ↔
      m.locate false m.scratch = .ok (.vacant place) ∧ m.tree.isFree place = true := by
  unfold scratchPlace
  cases m.locate false m.scratch with
  | error e => simp
  | ok found =>
    cases found with
    | found l n => simp
    | vacant l =>
      by_cases hfree : m.tree.isFree l = true
      · simp only [hfree, if_true, Except.ok.injEq, Place.vacant.injEq]
        constructor
        · rintro rfl
          exact ⟨rfl, hfree⟩
        · exact fun h => h.1
      · simp only [hfree, Bool.false_eq_true, if_false, reduceCtorEq, Except.ok.injEq, Place.vacant.injEq,
          false_iff, not_and]
        rintro rfl
        exact hfree

theorem ScratchAt.vacant {followLast : Bool} (h : m.ScratchAt above name top) :
    m.locate followLast m.scratch = .ok (.vacant (top ++ [name])) := by
  have hnone : m.tree.get? (top ++ [name]) = none :=
    h.unheard.node _ List.prefix_rfl
  rw [h.scratch]
  exact locate_child h.entry h.directory (.vacant h.entry.1 h.entry.2.1 hnone)

/-- A directory for passing use that is yet to be made has its place. -/
theorem ScratchAt.scratchPlace (h : m.ScratchAt above name top) : m.scratchPlace = .ok (top ++ [name]) :=
  scratchPlace_eq_ok_iff.mpr ⟨h.vacant, h.unheard.isFree⟩

theorem withScratch_eq (h : m.scratchPlace = .ok place) :
    m.withScratch = m.withTree (m.tree.insert place .directory) := by
  rw [withScratch, ensureDirectories_of_vacant (scratchPlace_eq_ok_iff.mp h).1]
  rfl

theorem locate_withScratch (h : m.scratchPlace = .ok place) :
    m.withScratch.locate true m.scratch = .ok (.found place .directory) := by
  have hvacant := (scratchPlace_eq_ok_iff.mp h).1
  have hmade := locate_insert hvacant (fillable_of_vacant hvacant) directory_ne_link
  rw [Place.after, if_pos rfl] at hmade
  obtain ⟨hnul, k, hk, hleads⟩ := locate_eq_ok_iff.mp hmade
  rw [withScratch_eq h]
  exact locate_eq_ok_iff.mpr ⟨hnul, k, hk, hleads.followed directory_ne_link⟩

/-- The tree after a block has been stamped into the directory for passing use. -/
def stampedTree (m : Machine) (scratch : Location) (d : Descriptor) : FileTree :=
  (m.tree.insert scratch .directory).insert (scratch ++ [Block.fileName]) (.file (Block.bytes d))

theorem get?_stampedTree {d : Descriptor} {l : Location} (hl : ¬ place <+: l) :
    (m.stampedTree place d).get? l = m.tree.get? l := by
  rw [stampedTree, FileTree.get?_insert_of_ne, FileTree.get?_insert_of_ne]
  · rintro rfl
    exact hl List.prefix_rfl
  · rintro rfl
    exact hl (List.prefix_append _ _)

theorem fillable_withScratch (h : m.scratchPlace = .ok place) :
    m.withScratch.tree.Fillable (place ++ [Block.fileName]) := by
  have hroot : place ++ [Block.fileName] ≠ [] :=
    List.append_ne_nil_of_right_ne_nil _ (List.cons_ne_nil _ _)
  have hne : place ++ [Block.fileName] ≠ place := by simp
  have hnone := FileTree.get?_of_isFree (scratchPlace_eq_ok_iff.mp h).2 hroot (List.prefix_append _ _)
  refine ⟨hroot, ?_⟩
  intro n hn
  rw [withScratch_eq h, withTree_tree, FileTree.get?_insert_of_ne _ hne, hnone] at hn
  cases hn

theorem write_withScratch (h : m.scratchPlace = .ok place) (d : Descriptor) :
    m.withScratch.write (m.scratch.child Block.fileName) (Block.bytes d) =
      .ok (m.stampedTree place d) := by
  rw [write_child Block.isEntryName_fileName (Block.bytes d) (locate_withScratch h) (fillable_withScratch h),
    withScratch_eq h]
  rfl

/-- The directory for passing use takes every block. -/
theorem writeBlock_withScratch (h : m.scratchPlace = .ok place) (d : Descriptor) :
    m.withScratch.writeBlock m.scratch d = (m.stampedTree place d, .ok ()) := by
  have hthere : m.withScratch.isDirectory m.scratch = true :=
    isDirectory_iff.mpr (node_eq_ok_iff.mpr ⟨_, locate_withScratch h⟩)
  rw [Machine.writeBlock, ensureDirectories_of_isDirectory hthere]
  simp only
  rw [show { m.withScratch with tree := m.withScratch.tree } = m.withScratch from rfl, write_withScratch h d]

/-- **Once the directory for passing use is gone, the tree is the one before the restamp, whether that has
succeeded or failed.** -/
theorem erase_restamp (h : m.scratchPlace = .ok place) (root : Pathname) (excludeTests : Option Bool) :
    (m.withScratch.stamp root (some m.scratch) none excludeTests).tree.erase place = m.tree := by
  have hfree := (scratchPlace_eq_ok_iff.mp h).2
  rcases m.withScratch.stamp_tree root (some m.scratch) none excludeTests with
    hsame | ⟨declared, directory, -, hdirectory, hwrite⟩
  · rw [hsame, withScratch_eq h, withTree_tree, FileTree.erase_insert_of_prefix List.prefix_rfl,
      FileTree.erase_of_isFree hfree]
  · obtain rfl : m.scratch = directory := Except.ok.inj hdirectory
    rw [hwrite, writeBlock_withScratch h, stampedTree,
      FileTree.erase_insert_of_prefix (List.prefix_append _ _),
      FileTree.erase_insert_of_prefix List.prefix_rfl, FileTree.erase_of_isFree hfree]

/-- **So a verification leaves every tree as it was, however it ends.** -/
theorem verify_tree (m : Machine) (root directory : Pathname) (excludeTests : Option Bool) :
    (m.verify root directory excludeTests).tree = m.tree := by
  unfold verify
  split
  · rfl
  split
  · rfl
  split
  · rfl
  · rename_i place hplace
    simp only
    split
    · exact erase_restamp hplace root excludeTests
    · exact erase_restamp hplace root excludeTests

/-- The restamp goes into the directory for passing use and nowhere else. -/
theorem ScratchAt.stamp {declared : Declared} (h : m.ScratchAt above name top)
    (hdeclared : (m.declareArtifact root none excludeTests).result = .ok declared) :
    (m.withScratch.stamp root (some m.scratch) none excludeTests).tree =
        m.stampedTree (top ++ [name]) declared.descriptor ∧
      ∃ stamped, (m.withScratch.stamp root (some m.scratch) none excludeTests).result =
        .ok stamped := by
  have hconfig : m.withScratch.node (Config.fileUnder root) = m.node (Config.fileUnder root) := by
    obtain ⟨data, hnode⟩ := exists_config_file hdeclared
    obtain ⟨l, hlocate⟩ := node_eq_ok_iff.mp hnode
    have hvacant : m.locate false m.scratch = .ok (.vacant (top ++ [name])) := h.vacant
    have hmakes : m.Makes m.scratch (m.tree.insert (top ++ [name]) .directory) :=
      .make .refl List.prefix_rfl hvacant
    rw [hnode, withScratch_eq h.scratchPlace]
    exact node_eq_ok_iff.mpr ⟨l, hmakes.locate_found hlocate⟩
  have hout : m.withScratch.outputDirectory root (some m.scratch) declared.config = .ok m.scratch := rfl
  have hdeclared' : (m.withScratch.declareArtifact root none excludeTests).result = .ok declared := by
    rw [declareArtifact_congr hconfig, hdeclared]
  rw [stamp_of_writeBlock hdeclared' hout (writeBlock_withScratch h.scratchPlace declared.descriptor)]
  exact ⟨rfl, _, rfl⟩

/-! ## The comparison -/

/-- What the paths of the directory that is verified lead to is not changed by the restamp. -/
theorem ScratchAt.locate_stampedTree {l : Location} (h : m.ScratchAt above name top) (d : Descriptor)
    (hdirectory : m.locate true directory = .ok (.found l .directory)) :
    (m.withTree (m.stampedTree (top ++ [name]) d)).locate true directory =
        .ok (.found l .directory) ∧
      (m.withTree (m.stampedTree (top ++ [name]) d)).node (directory.child Block.fileName) =
        m.node (directory.child Block.fileName) := by
  have hfill := fillable_withScratch h.scratchPlace
  rw [withScratch_eq h.scratchPlace] at hfill
  obtain ⟨hnul, k, hk, hleads⟩ := locate_eq_ok_iff.mp hdirectory
  -- The directory was found before anything was made, so it is found again by the same links.
  have hvacant : m.locate true m.scratch = .ok (.vacant (top ++ [name])) := h.vacant
  have hmade := hleads.insert (fillable_of_vacant hvacant) directory_ne_link
  have hstamped := FileTree.Leads.insert hmade hfill (file_ne_link (Block.bytes d))
  have hstart : ¬ top ++ [name] <+: m.start directory := by
    unfold start
    split
    · exact FileTree.not_prefix_nil
    · exact h.current
  have hapart := h.unheard.not_prefix_of_leads hleads hstart
  have hsame (l' : Location) (hl' : ¬ top ++ [name] <+: l') :
      (m.stampedTree (top ++ [name]) d).get? l' = m.tree.get? l' := get?_stampedTree hl'
  constructor
  · exact locate_eq_ok_iff.mpr ⟨hnul, k, hk, hstamped⟩
  · rw [node, node, locate_child_congr h.unheard hsame hapart Block.isEntryName_fileName
      h.ne_fileName.symm hnul hk hleads hstamped]

/-- The directory for passing use holds the new block. -/
theorem ScratchAt.node_scratch (h : m.ScratchAt above name top) (d : Descriptor) :
    (m.withTree (m.stampedTree (top ++ [name]) d)).locate true m.scratch =
        .ok (.found (top ++ [name]) .directory) ∧
      (m.withTree (m.stampedTree (top ++ [name]) d)).node (m.scratch.child Block.fileName) =
        .ok (.file (Block.bytes d)) := by
  have hwrite := write_withScratch h.scratchPlace d
  have hmade := locate_withScratch h.scratchPlace
  have hfill := fillable_withScratch h.scratchPlace
  rw [withScratch_eq h.scratchPlace] at hwrite hmade hfill
  have hblock := node_write hwrite
  refine ⟨locate_found_insert hmade hfill ?_, hblock⟩
  intro old hold
  cases hold

theorem blockFilesIn_of_isFile {l : Location} {b : Bool}
    (hdirectory : m.locate true directory = .ok (.found l .directory))
    (hfile : m.isFile (directory.child Block.fileName) = b) :
    m.blockFilesIn directory = if b then [[Block.fileName]] else [] := by
  have hlisted := contains_filesBelow Block.isEntryName_fileName hdirectory
  rw [hfile] at hlisted
  cases b <;> simp only [blockFilesIn, Verification.blockFiles, List.filter_cons, List.filter_nil, hlisted]

/-- Two directories are compared by one file where the second holds a block. -/
theorem compareBlocks_eq {again : Pathname} {l l' : Location} {d : Descriptor}
    (hdirectory : m.locate true directory = .ok (.found l .directory))
    (hagain : m.locate true again = .ok (.found l' .directory))
    (hblock : m.node (again.child Block.fileName) = .ok (.file (Block.bytes d))) :
    m.compareBlocks directory again = .ofNode (m.node (directory.child Block.fileName)) d := by
  have hfile : m.isFile (again.child Block.fileName) = true := isFile_iff.mpr ⟨_, hblock⟩
  have hread : m.read (again ++ ⟨false, [Block.fileName]⟩) = .ok (Block.bytes d) :=
    read_eq_ok_iff.mpr hblock
  have hregenerated := blockFilesIn_of_isFile hagain hfile
  cases hnode : m.isFile (directory.child Block.fileName) with
  | false =>
    have horiginal := blockFilesIn_of_isFile hdirectory hnode
    have hmissing : Comparison.ofNode (m.node (directory.child Block.fileName)) d =
        { missing := [Block.fileName] } := by
      unfold Comparison.ofNode
      split
      · rename_i data hdata
        have hfile' := isFile_iff.mpr ⟨data, hdata⟩
        rw [hnode] at hfile'
        cases hfile'
      · rfl
    simp only [compareBlocks, horiginal, hregenerated, hmissing]
    rfl
  | true =>
    have horiginal := blockFilesIn_of_isFile hdirectory hnode
    obtain ⟨data, hdata⟩ := isFile_iff.mp hnode
    have hread' : m.read (directory ++ ⟨false, [Block.fileName]⟩) = .ok data :=
      read_eq_ok_iff.mpr hdata
    have hagree : m.agree (directory ++ ⟨false, [Block.fileName]⟩)
        (again ++ ⟨false, [Block.fileName]⟩) = decide (data.data = (Block.bytes d).data) := by
      rw [agree, hread, hread']
    simp only [compareBlocks, horiginal, hregenerated, hdata, Comparison.ofNode]
    by_cases heq : data.data = (Block.bytes d).data
    · simp [hagree, heq, Verification.relativePaths]
    · simp [hagree, heq, Verification.relativePaths]
      rfl

end Scratch

/-! ## Verifying -/

/-- A verification for which the artifact can be stamped again compares one file with the block of the
descriptor that is declared now. -/
theorem verify_eq {declared : Declared} (hfresh : m.HasFreshScratch)
    (hdirectory : m.isDirectory directory = true)
    (hdeclared : (m.declareArtifact root none excludeTests).result = .ok declared) :
    (m.verify root directory excludeTests).result =
      .ok (.ofNode (m.node (directory.child Block.fileName)) declared.descriptor) := by
  obtain ⟨above, name, top, hscratch⟩ := hfresh
  obtain ⟨l, hlocate⟩ := node_eq_ok_iff.mp (isDirectory_iff.mp hdirectory)
  have hpresent : m.isPresent directory = true := isPresent_iff.mpr ⟨_, isDirectory_iff.mp hdirectory⟩
  obtain ⟨htree, stamped, hstamped⟩ := hscratch.stamp hdeclared
  obtain ⟨hsame, hblock⟩ := hscratch.locate_stampedTree declared.descriptor hlocate
  obtain ⟨hagain, hnew⟩ := hscratch.node_scratch declared.descriptor
  have hcompared := compareBlocks_eq hsame hagain hnew
  rw [hblock] at hcompared
  unfold verify
  simp only [hpresent, hdirectory, Bool.not_true, Bool.false_eq_true, if_false, hscratch.scratchPlace,
    hstamped, htree]
  exact congrArg Except.ok hcompared

/-- **A verification agrees exactly where the block in the directory has the bytes of the descriptor that is
declared now; it misses the block exactly where there is no such file, and finds a mismatch exactly where
the file has other bytes. Nothing else has any bearing on the result, and a block that was stamped earlier,
from whatever configuration, agrees exactly where its descriptor is the one that is declared now.** -/
theorem verify_tells_changes {declared : Declared} (hfresh : m.HasFreshScratch)
    (hdirectory : m.isDirectory directory = true)
    (hdeclared : (m.declareArtifact root none excludeTests).result = .ok declared) :
    ∃ c, (m.verify root directory excludeTests).result = .ok c ∧
      (c.ok = true ↔
        m.node (directory.child Block.fileName) = .ok (.file (Block.bytes declared.descriptor))) ∧
      (c.missing = [Block.fileName] ↔
        ∀ data, m.node (directory.child Block.fileName) ≠ .ok (.file data)) ∧
      (c.mismatches = [Block.fileName] ↔
        ∃ data, m.node (directory.child Block.fileName) = .ok (.file data) ∧
          data ≠ Block.bytes declared.descriptor) ∧
      c.extra = [] ∧
      (∀ (m' : Machine) (root' directory' : Pathname) (excludeTests' : Option Bool)
          (declared' : Declared),
        m'.HasFreshScratch → m'.isDirectory directory' = true →
          (m'.declareArtifact root' none excludeTests').result = .ok declared' →
            declared'.descriptor = declared.descriptor →
              m'.node (directory'.child Block.fileName) = m.node (directory.child Block.fileName) →
                (m'.verify root' directory' excludeTests').result = .ok c) ∧
      ∀ (old : Machine) (root₀ : Pathname) (output₀ : Option Pathname) (config₀ : Option Config)
          (excludeTests₀ : Option Bool) (stamped : Stamped),
        (old.stamp root₀ output₀ config₀ excludeTests₀).result = .ok stamped →
          m.node (directory.child Block.fileName) =
              { old with tree := (old.stamp root₀ output₀ config₀ excludeTests₀).tree }.node
                stamped.block →
            (c.ok = true ↔ stamped.descriptor = declared.descriptor) := by
  refine ⟨_, verify_eq hfresh hdirectory hdeclared, Comparison.ok_ofNode, Comparison.missing_ofNode,
    Comparison.mismatches_ofNode, Comparison.extra_ofNode, ?_, ?_⟩
  · intro m' root' directory' excludeTests' declared' hfresh' hdirectory' hdeclared' hsame hblock
    rw [verify_eq hfresh' hdirectory' hdeclared', hsame, hblock]
  · intro old root₀ output₀ config₀ excludeTests₀ stamped hstamped hblock
    obtain ⟨declared₀, directory₀, hdeclared₀, _, hwrite, rfl⟩ := stamp_eq_ok hstamped
    obtain ⟨_, l, _, _, _, _, hlocate⟩ := writeBlock_eq_ok hwrite
    have hold : m.node (directory.child Block.fileName) =
        .ok (.file (Block.bytes declared₀.descriptor)) :=
      hblock.trans (node_eq_ok_iff.mpr ⟨l, hlocate⟩)
    rw [Comparison.ok_ofNode, hold]
    -- Both blocks are of declared, hence well-formed, descriptors, so their bytes tell them apart.
    constructor
    · intro hbytes
      rw [Except.ok.injEq, Node.file.injEq] at hbytes
      exact Block.eq_of_bytes_eq (wellFormed_of_declareArtifact hdeclared₀)
        (wellFormed_of_declareArtifact hdeclared) hbytes
    · intro hsame
      rw [show declared₀.descriptor = declared.descriptor from hsame]

theorem settledSample_hasFreshScratch : settledSample.HasFreshScratch := by
  refine ⟨⟨true, ["tmp"]⟩, "restamp", ["tmp"], rfl, rfl, by decide +kernel, by decide +kernel,
    FileTree.unheard_of_hasHeard ?_, by decide⟩
  decide +kernel

theorem settledSample_declares :
    ∃ declared, (settledSample.declareArtifact ⟨true, ["art"]⟩ none none).result = .ok declared ∧
      declared.descriptor = Stamping.sampleDescriptor ∧ declared.config.build = .default :=
  declareArtifact_of_declaredBy rfl Stamping.declaredBy?_sampleText

/-- The block of the sample artifact agrees. -/
theorem verify_tells_settled_sample :
    settledSample.HasFreshScratch ∧ settledSample.isDirectory ⟨true, ["art", ".descriptor"]⟩ = true ∧
      ∃ declared c, (settledSample.declareArtifact ⟨true, ["art"]⟩ none none).result = .ok declared ∧
        (settledSample.verify ⟨true, ["art"]⟩ ⟨true, ["art", ".descriptor"]⟩ none).result = .ok c ∧
          c.ok = true := by
  have hdirectory : settledSample.isDirectory ⟨true, ["art", ".descriptor"]⟩ = true := rfl
  obtain ⟨declared, hdeclared, hd, _⟩ := settledSample_declares
  obtain ⟨c, hverify, hok, _⟩ :=
    verify_tells_changes settledSample_hasFreshScratch hdirectory hdeclared
  refine ⟨settledSample_hasFreshScratch, hdirectory, declared, c, hdeclared, hverify, hok.mpr ?_⟩
  rw [hd]
  rfl

end Machine

end ArtifactIdentity
