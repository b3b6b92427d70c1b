import ArtifactIdentity.Proofs.Block.Readers
import ArtifactIdentity.Proofs.CommandLine.Settled
import ArtifactIdentity.Proofs.Config.Settings
import ArtifactIdentity.Proofs.Files.Alike

/-!
# Showing a block again

However a block is written, what is shown of it is the block of its descriptor. Put back in its place it is
loaded as the same descriptor, is valid, and is shown the same again. The configuration may say where the block
is, and it is another file, since no JSON object is TOML; so every command line that led to the block leads to
it afterwards. What is shown of one field is the member of the whole.
-/

namespace ArtifactIdentity

/-! ## Trees that differ in a block -/

/-- There is a file with a JSON object at a location. -/
def FileTree.HasObject (t : FileTree) (l : Location) : Prop :=
  ∃ data members, t.get? l = some (.file data) ∧ Json.ofBytes? data = some (.object members)

namespace Machine

open FileTree

variable {m : Machine} {t' : FileTree} {l : Location} {root : Pathname}

/-- A configuration is another file than one that holds a JSON object. -/
theorem loadConfig_alike {config : Config} (h : AlikeBut l m.tree t') (hobject : m.tree.HasObject l)
    (hload : m.loadConfig root = .ok config) : (m.withTree t').loadConfig root = .ok config := by
  obtain ⟨data, members, hfile, hjson⟩ := hobject
  rw [← hload]
  apply loadConfig_congr
  apply node_alike h
  intro other hlocate
  have hsame := (get?_of_file hlocate).2
  rw [hfile, Option.some.injEq, Node.file.injEq] at hsame
  rw [loadConfig_of_node (node_eq_ok_iff.mpr ⟨l, hlocate⟩), ← hsame,
    Config.ofBytes_of_object _ hjson] at hload
  cases hload

end Machine

namespace CommandLine

open FileTree

variable {m : Machine} {t' : FileTree} {l : Location} {root directory : Pathname} {words : List String}
  {field given : Option String}

theorem givenPath_alike (h : AlikeBut l m.tree t') (word : String) :
    givenPath (m.withTree t') word = givenPath m word := by
  have hexpand (p : Pathname) : (m.withTree t').expandHome p = m.expandHome p := rfl
  simp only [givenPath, hexpand, Machine.resolved, Machine.resolve_alike h]

theorem artifactsDirectory_alike (h : AlikeBut l m.tree t') (hobject : m.tree.HasObject l)
    (hdirectory : artifactsDirectory m root given = .ok directory) :
    artifactsDirectory (m.withTree t') root given = .ok directory := by
  cases given with
  | some word => exact (givenPath_alike h word).trans hdirectory
  | none =>
    cases hload : m.loadConfig root with
    | error e =>
      rw [artifactsDirectory, hload] at hdirectory
      cases hdirectory
    | ok config =>
      rw [artifactsDirectory, hload] at hdirectory
      rw [artifactsDirectory, Machine.loadConfig_alike h hobject hload]
      show ((m.withTree t').resolveOutput root config.build.outputDirectory).map Pathname.ofLocation = _
      rw [Machine.resolveOutput_alike h]
      exact hdirectory

/-! ## Command lines that show a block -/

/-- The words of a command line ask to show the block of a directory, or a field of it. -/
def Shows (m : Machine) (words : List String) (directory : Pathname) (field : Option String) : Prop :=
  ∃ verbose rootWord given root, parse words = .ok ⟨verbose, rootWord, .display given field⟩ ∧
    givenPath m rootWord = .ok root ∧ artifactsDirectory m root given = .ok directory

theorem Shows.answer_eq (h : Shows m words directory field) :
    answer m words = .ok (runDisplay m directory field) := by
  obtain ⟨verbose, rootWord, given, root, hparse, hroot, hdirectory⟩ := h
  rw [answer_of_parse hparse]
  simp only [run, hroot, onDirectory, hdirectory]

/-- Another block in the place of an object is asked for by the same words. -/
theorem Shows.alike (h : Shows m words directory field) (htrees : AlikeBut l m.tree t')
    (hobject : m.tree.HasObject l) : Shows (m.withTree t') words directory field := by
  obtain ⟨verbose, rootWord, given, root, hparse, hroot, hdirectory⟩ := h
  exact ⟨verbose, rootWord, given, root, hparse, (givenPath_alike htrees rootWord).trans hroot,
    artifactsDirectory_alike htrees hobject hdirectory⟩

theorem Shows.answer_of_load {d : Descriptor} (h : Shows m words directory none)
    (hload : m.load directory = .ok d) : answer m words = .ok ⟨m.tree, Block.text d, [], .exit 0⟩ := by
  rw [h.answer_eq, runDisplay, hload]
  rfl

theorem Shows.answer_field {d : Descriptor} {word : String} {f : Field}
    (h : Shows m words directory (some word)) (hf : Field.ofSpelling? word = some f)
    (hload : m.load directory = .ok d) :
    answer m words = .ok ⟨m.tree, factText (d.fact f), [], .exit 0⟩ := by
  rw [h.answer_eq, runDisplay, hload]
  simp only [hf]
  rfl

/-! ## Values that are shown -/

/-- What is shown of a field is read as its value. -/
theorem ofBytes?_factText {fact : Fact} (h : fact.Fits) :
    Json.ofBytes? (factText fact).toUTF8 = some fact.toJson := by
  have hend : Json.EndsValue ['\n'] := ⟨_, _, rfl, Or.inr rfl⟩
  have hbreak : Json.Begins ['\n'] [] [] := Json.Begins.space (by decide) (Json.Begins.refl [])
  have hbegins := (Fact.begins_chars h hend).trans hbreak
  rw [Json.ofBytes?_toUTF8, factText, String.toList_ofList, Json.ofChars?_of_begins hbegins]
  have hscalar := Json.build_scalar fact.isScalar_toJson [] []
  rw [List.append_nil, hscalar, Json.build]

theorem lookup_members (d : Descriptor) (f : Field) :
    (Block.members.map (Block.entry d)).lookup f.blockName = some (d.fact f).toJson :=
  Table.lookup_of_mem (Block.nodup_names d)
    (List.mem_map.mpr ⟨.field f, Block.field_mem_members f, rfl⟩)

/-- **To show a block is to bring it into its normal form. However the block of a directory is written, if it is
loaded, then what is shown of it can be put back in its place; there it is loaded as the same descriptor, is
strictly valid without a message, and every command line that showed the block shows the same again. What is
shown of a field, under either spelling, is the value that the member of this field has in the whole.** -/
theorem shown_block_is_normal {d : Descriptor} (h : m.load directory = .ok d) :
    (∃ tree, m.write (directory.child Block.fileName) (Block.text d).toUTF8 = .ok tree ∧
        (m.withTree tree).load directory = .ok d ∧ (m.withTree tree).validate directory true = {} ∧
        ∀ words, Shows m words directory none →
          answer m words = .ok ⟨m.tree, Block.text d, [], .exit 0⟩ ∧
            answer (m.withTree tree) words = .ok ⟨tree, Block.text d, [], .exit 0⟩) ∧
      ∃ members, Json.ofBytes? (Block.text d).toUTF8 = some (.object members) ∧
        ∀ words word f, Shows m words directory (some word) → Field.ofSpelling? word = some f →
          ∃ output v, answer m words = .ok ⟨m.tree, output, [], .exit 0⟩ ∧
            Json.ofBytes? output.toUTF8 = some v ∧ members.lookup f.blockName = some v := by
  have hd := Machine.wellFormed_of_load h
  obtain ⟨members, data, hnode, hjson⟩ := Machine.holdsObject_of_load h
  obtain ⟨l, hlocate⟩ := Machine.node_eq_ok_iff.mp hnode
  obtain ⟨hroot, hfile⟩ := Machine.get?_of_file hlocate
  have hwrite : m.write (directory.child Block.fileName) (Block.bytes d) =
      .ok (m.tree.insert l (.file (Block.bytes d))) :=
    Machine.write_of_file _ hlocate
  have hblock := Machine.node_write hwrite
  have hloaded := Machine.load_of_node hd hblock
  have halike : AlikeBut l m.tree (m.tree.insert l (.file (Block.bytes d))) :=
    ⟨⟨data, hfile⟩, ⟨_, FileTree.get?_insert_self _ hroot _⟩,
      fun _ hhere => FileTree.get?_insert_of_ne _ hhere _⟩
  have hthere : m.isDirectory directory = true := by
    obtain ⟨top, htop, -⟩ := Machine.locate_of_child Block.isEntryName_fileName hlocate
    exact Machine.isDirectory_iff.mpr (Machine.node_eq_ok_iff.mpr ⟨top, htop⟩)
  refine ⟨⟨_, hwrite, hloaded, ?_, ?_⟩, _, Block.ofBytes?_bytes d, ?_⟩
  · exact Machine.validate_of_node hd ((Machine.isDirectory_alike halike).trans hthere) hblock true
  · intro words hshows
    exact ⟨hshows.answer_of_load h, (hshows.alike halike ⟨data, members, hfile, hjson⟩).answer_of_load hloaded⟩
  · intro words word f hshows hf
    exact ⟨_, _, hshows.answer_field hf h, ofBytes?_factText (Block.fits_factOf d (.field f)),
      lookup_members d f⟩

/-! ## A block in another spelling -/

/-- The block of the sample artifact with its members in another order and under other names, and without the
version of the schema. -/
def respelledText : String :=
  "\x7b\"fileVersion\":[1,2,3,4], \"title\":\"\\u0057\",\r\n" ++
    "\"assembly_version\":\" 1.02.3.4\",\"product_name\":\"W\",\"organization\":\"A\",\n" ++
    "\"uniqueId\":\"97DB45A8-F922-456A-A819-7B3C6E5E03BA\"\x7d"

def respelledSample : Machine :=
  .sample
    [(["art", ".descriptor"], .directory),
      (["art", ".descriptor", "descriptor.json"], .file respelledText.toUTF8)]

/-- The block in another spelling is shown as the sample artifact is stamped, and put back it is shown so
again. -/
theorem respelled_block_is_normal :
    respelledSample.load ⟨true, ["art", ".descriptor"]⟩ = .ok Stamping.sampleDescriptor ∧
      (∃ tree, answer respelledSample ["show", "."] =
          .ok ⟨respelledSample.tree, Block.text Stamping.sampleDescriptor, [], .exit 0⟩ ∧
        respelledSample.write ⟨true, ["art", ".descriptor", "descriptor.json"]⟩
          (Block.text Stamping.sampleDescriptor).toUTF8 = .ok tree ∧
        answer (respelledSample.withTree tree) ["show", "."] =
          .ok ⟨tree, Block.text Stamping.sampleDescriptor, [], .exit 0⟩) ∧
      ∃ members output v,
        Json.ofBytes? (Block.text Stamping.sampleDescriptor).toUTF8 = some (.object members) ∧
          answer respelledSample ["show", "--field", "unique_id"] =
            .ok ⟨respelledSample.tree, output, [], .exit 0⟩ ∧
          Json.ofBytes? output.toUTF8 = some v ∧ members.lookup "uniqueId" = some v := by
  have hroot : givenPath respelledSample "." = .ok ⟨true, ["art"]⟩ := rfl
  have hdirectory : artifactsDirectory respelledSample ⟨true, ["art"]⟩ none =
      .ok ⟨true, ["art", ".descriptor"]⟩ := rfl
  have hfile : respelledSample.node (Pathname.child ⟨true, ["art", ".descriptor"]⟩ Block.fileName) =
      .ok (.file respelledText.toUTF8) := rfl
  have hload : respelledSample.load ⟨true, ["art", ".descriptor"]⟩ = .ok Stamping.sampleDescriptor := by
    have hread : ((Block.factsIn? respelledText).bind fun facts =>
        (Descriptor.ofEntries facts).surfaced.toOption) = some Stamping.sampleDescriptor := by
      decide +kernel
    obtain ⟨facts, hfacts, hsound⟩ := Option.bind_eq_some_iff.mp hread
    obtain ⟨members, hobject, rfl⟩ := Machine.holdsObject_of_factsIn? hfile hfacts
    rw [Machine.load_of_object hobject, eq_ok_of_toOption hsound]
    rfl
  have hwhole : Shows respelledSample ["show", "."] ⟨true, ["art", ".descriptor"]⟩ none :=
    ⟨false, ".", none, _, by decide +kernel, hroot, hdirectory⟩
  have hfield : Shows respelledSample ["show", "--field", "unique_id"] ⟨true, ["art", ".descriptor"]⟩
      (some "unique_id") := ⟨false, ".", none, _, by decide +kernel, hroot, hdirectory⟩
  obtain ⟨⟨tree, hwrite, -, -, hshown⟩, members, hmembers, hfields⟩ := shown_block_is_normal hload
  obtain ⟨hbefore, hafter⟩ := hshown _ hwhole
  obtain ⟨output, v, hanswer, hv, hlookup⟩ := hfields _ _ .uniqueId hfield (by decide +kernel)
  exact ⟨hload, ⟨tree, hbefore, hwrite, hafter⟩, members, output, v, hmembers, hanswer, hv, hlookup⟩

end CommandLine

end ArtifactIdentity
