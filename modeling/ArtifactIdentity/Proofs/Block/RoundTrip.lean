import ArtifactIdentity.Block.Inspection
import ArtifactIdentity.Proofs.Descriptor.WellFormed
import ArtifactIdentity.Proofs.Files.Filling
import ArtifactIdentity.Proofs.Json.Written

/-!
# Blocks read back

The block of a well-formed descriptor is read as that descriptor. The text of the block is read as one
object with a member for each fact; the facts are stated again by the literals that they are read as; so
the table of the facts is read as the descriptor. Two descriptors with the same bytes are therefore equal.
-/

namespace ArtifactIdentity

/-! ## Facts as values -/

namespace Fact

def toJson : Fact → Json
  | .none => .null
  | .flag b => .bool b
  | .number n => .integer n
  | .text s => .string s

def toLiteral : Fact → Literal
  | .none => .absent
  | .flag b => .flag b
  | .number n => .integer n
  | .text s => .text s

theorem toLiteral_toJson (fact : Fact) : fact.toJson.toLiteral = fact.toLiteral := by
  cases fact <;> simp [toJson, toLiteral, Json.toLiteral]

theorem isScalar_toJson (fact : Fact) : Json.isScalar fact.toJson = true := by
  cases fact <;> rfl

/-- A number that a reader keeps exactly. -/
def Fits : Fact → Prop
  | .number n => n < 0x10000000000000000
  | _ => True

theorem begins_chars {fact : Fact} (hfits : fact.Fits) {rest : List Char}
    (hr : Json.EndsValue rest) :
    Json.Begins (fact.chars ++ rest) [Json.scalarToken fact.toJson] rest := by
  cases fact with
  | none => exact Json.Begins.null rest
  | flag b => exact Json.Begins.flag b rest
  | number n => exact Json.Begins.number hfits hr
  | text s => exact Json.Begins.string s rest

end Fact

/-! ## The text of a block -/

namespace Block

open Json (Begins)

/-- A member with the value that it has in a block. -/
def entry (d : Descriptor) (m : Member) : String × Json :=
  (m.name, (factOf d m).toJson)

theorem fits_factOf (d : Descriptor) (m : Member) : (factOf d m).Fits := by
  cases m with
  | schemaVersion =>
    show schemaVersion < 0x10000000000000000
    decide
  | field f =>
    cases f with
    | internalAccessGrant =>
      cases h : d.internalAccessGrant <;> simp [factOf, Descriptor.fact, h, Fact.Fits]
    | _ => exact trivial

theorem begins_memberChars (d : Descriptor) (m : Member) {rest : List Char}
    (hr : Json.EndsValue rest) :
    Begins (memberChars d m ++ rest)
      [.string m.name, .colon, Json.scalarToken (factOf d m).toJson] rest := by
  have hvalue := Fact.begins_chars (fits_factOf d m) hr
  have hcolon : Begins (':' :: ' ' :: ((factOf d m).chars ++ rest)) [.colon]
      (' ' :: ((factOf d m).chars ++ rest)) :=
    Begins.token (by decide) (by simp [Json.scanToken])
  have hname := Begins.string m.name (':' :: ' ' :: ((factOf d m).chars ++ rest))
  have hline := hname.trans (hcolon.trans (Begins.space (by decide) hvalue))
  have happend : memberChars d m ++ rest = ' ' :: ' ' ::
      (Json.stringChars m.name.toList ++ ':' :: ' ' :: ((factOf d m).chars ++ rest)) := by
    simp [memberChars]
  rw [happend]
  exact Begins.space (by decide) (Begins.space (by decide) hline)

/-- The lines of some members begin with the tokens of these members. -/
theorem begins_lines (d : Descriptor) {ms : List Member} (hne : ms ≠ []) (rest : List Char) :
    Begins (lines (ms.map (memberChars d)) ++ rest) (Json.memberTokens (ms.map (entry d))) rest := by
  have hbreak : Begins ('\n' :: rest) [] rest := Begins.space (by decide) (Begins.refl rest)
  induction ms with
  | nil => exact absurd rfl hne
  | cons m more ih =>
    cases more with
    | nil =>
      have hend : Json.EndsValue ('\n' :: rest) := ⟨_, _, rfl, Or.inr rfl⟩
      have hline := begins_memberChars d m hend
      simpa [lines, Json.memberTokens, entry] using hline.trans hbreak
    | cons next more =>
      have hmore := ih (by simp)
      have hcomma (cs : List Char) : Begins (',' :: '\n' :: cs) [.comma] ('\n' :: cs) :=
        Begins.token (by decide) (by simp [Json.scanToken])
      have hend (cs : List Char) : Json.EndsValue (',' :: '\n' :: cs) := ⟨_, _, rfl, Or.inl rfl⟩
      have hline := begins_memberChars d m
        (hend (lines ((next :: more).map (memberChars d)) ++ rest))
      have hall := hline.trans ((hcomma _).trans (Begins.space (by decide) hmore))
      simpa [lines, Json.memberTokens, entry] using hall

theorem nodup_names (d : Descriptor) : ((members.map (entry d)).map Prod.fst).Nodup := by
  rw [List.map_map]
  -- The names ascend strictly, whatever the facts.
  have hnames : members.map (Prod.fst ∘ entry d) = members.map Member.name := rfl
  rw [hnames]
  exact members_pairwise_lt.imp fun h => String.ne_of_lt h

/-- **The bytes of a block are read as the object of its members.** -/
theorem ofBytes?_bytes (d : Descriptor) :
    Json.ofBytes? (bytes d) = some (.object (members.map (entry d))) := by
  have hopen : Begins (objectChars d ++ ['\n']) [.beginObject]
      ('\n' :: (lines (members.map (memberChars d)) ++ ['\x7d', '\n'])) := by
    have happend : objectChars d ++ ['\n'] =
        '\x7b' :: '\n' :: (lines (members.map (memberChars d)) ++ ['\x7d', '\n']) := by
      simp [objectChars]
    rw [happend]
    exact Begins.token (by decide) (by simp [Json.scanToken])
  have hne : members ≠ [] := by simp [members]
  have hlines := begins_lines d hne ['\x7d', '\n']
  have hbrace : Begins ['\x7d', '\n'] [.endObject] ['\n'] :=
    Begins.token (by decide) (by simp [Json.scanToken])
  have hclose : Begins ['\x7d', '\n'] [.endObject] [] :=
    hbrace.trans (Begins.space (by decide) (Begins.refl []))
  have hall := hopen.trans (Begins.space (by decide) (hlines.trans hclose))
  have hchars : Json.ofChars? (objectChars d ++ ['\n']) = some (.object (members.map (entry d))) := by
    rw [Json.ofChars?_of_begins hall]
    refine Json.build_object (by simpa using hne) ?_ (nodup_names d)
    intro e he
    obtain ⟨m, -, rfl⟩ := List.mem_map.mp he
    exact Fact.isScalar_toJson (factOf d m)
  rw [bytes, text, Json.ofBytes?_toUTF8, String.toList_ofList]
  exact hchars

end Block

/-! ## Facts stated again -/

namespace Field

theorem blockName_injective {f g : Field} (h : f.blockName = g.blockName) : f = g := by
  have hf : ofSpelling? f.blockName = some f := ofSpelling?_eq_some_iff.mpr (Or.inr rfl)
  have hg : ofSpelling? g.blockName = some g := ofSpelling?_eq_some_iff.mpr (Or.inr rfl)
  rw [h, hg] at hf
  exact (Option.some.inj hf).symm

/-- A table under block names gives for each of its fields what it says of that field. -/
theorem given?_blockNames {fs : List Field} {literal : Field → Literal} {f : Field} (h : f ∈ fs) :
    f.given? (fs.map fun g => (g.blockName, literal g)) = some (f.blockName, literal f) := by
  have hlookup : (fs.map fun g => (g.blockName, literal g)).lookup f.blockName = some (literal f) := by
    induction fs with
    | nil => cases h
    | cons g more ih =>
      by_cases hg : f = g
      · subst hg
        simp
      · have hne : f.blockName ≠ g.blockName := fun e => hg (blockName_injective e)
        have hmem : f ∈ more := (List.mem_cons.mp h).resolve_left hg
        rw [List.map_cons, Table.lookup_cons_of_ne hne]
        exact ih hmem
  rw [given?, hlookup]

end Field

namespace Descriptor

/-- **The fact that a well-formed descriptor has in a field is stated by its own literal.** -/
theorem states_fact {d : Descriptor} (h : d.WellFormed) (f : Field) :
    d.States f (d.fact f).toLiteral := by
  have shown (f : Field) {s : String} (hs : Text.isBlankText s.toList = false) :
      Coercion.shownText f (.text s) = .ok s := by
    simp [Coercion.shownText, hs]
  cases f with
  | title => exact shown .title h.title
  | organization => exact shown .organization h.organization
  | productName => exact shown .productName h.productName
  | uniqueId =>
    obtain ⟨n, hn⟩ := h.uniqueId
    refine ruled_eq_ok_iff.mpr ?_
    rw [fact, Fact.toLiteral, hn]
    exact UniqueId.ofLiteral_text Field.uniqueId.name n
  | assemblyVersion =>
    show Coercion.version .assemblyVersion (.text d.assemblyVersion.text) = .ok d.assemblyVersion
    rw [Coercion.version, Version.ofLiteral_text _ h.assemblyVersion]
    rfl
  | fileVersion =>
    show Coercion.version .fileVersion (.text d.fileVersion.text) = .ok d.fileVersion
    rw [Coercion.version, Version.ofLiteral_text _ h.fileVersion]
    rfl
  | internalAccessGrant =>
    cases hg : d.internalAccessGrant with
    | none => simp [States, fact, hg, Fact.toLiteral, Coercion.grant]
    | some name =>
      have hname : Counterpart.IsName name := h.internalAccessGrant name hg
      have hread := Counterpart.ofLiteral_name Field.internalAccessGrant.name hname
      simp [States, fact, hg, Fact.toLiteral, Coercion.grant, hread, Coercion.ruled, Except.map]
  | description | configurationTag | copyright | trademark | culture => rfl
  | interopVisible | complianceChecked => rfl

/-- **A table with the facts of a well-formed descriptor under its block names, in any order, is read as
that descriptor.** -/
theorem ofEntries_blockNames {d : Descriptor} (h : d.WellFormed) {fs : List Field}
    (hall : ∀ f, f ∈ fs) :
    ofEntries (fs.map fun f => (f.blockName, (d.fact f).toLiteral)) = .sound d := by
  have hgiven (f : Field) :
      f.given? (fs.map fun f => (f.blockName, (d.fact f).toLiteral)) =
        some (f.blockName, (d.fact f).toLiteral) :=
    Field.given?_blockNames (hall f)
  refine ofEntries_eq_sound_iff.mpr ⟨?_, ?_⟩
  · intro f
    rw [StatedBy, hgiven f]
    exact states_fact h f
  · intro e he
    obtain ⟨f, -, rfl⟩ := List.mem_map.mp he
    refine List.any_eq_true.mpr ⟨f, Field.mem_all f, ?_⟩
    rw [hgiven f]
    simp

end Descriptor

/-! ## Reading a block -/

namespace Block

def fields : List Field :=
  members.filterMap fun
    | .field f => some f
    | .schemaVersion => none

theorem mem_fields (f : Field) : f ∈ fields :=
  List.mem_filterMap.mpr ⟨.field f, field_mem_members f, rfl⟩

theorem entriesOf_eq_map (ms : List (String × Json)) :
    Json.entriesOf ms = ms.map fun e => (e.1, e.2.toLiteral) := by
  induction ms with
  | nil => rfl
  | cons e ms ih =>
    obtain ⟨name, value⟩ := e
    rw [Json.entriesOf, ih, List.map_cons]

/-- The facts of a block are those of the descriptor under its block names. -/
theorem factsOf_members (d : Descriptor) :
    factsOf (members.map (entry d)) = fields.map fun f => (f.blockName, (d.fact f).toLiteral) := by
  have hkept : (members.map (entry d)).filter (·.1 ≠ schemaVersionName) =
      fields.map fun f => (f.blockName, (d.fact f).toJson) := by
    simp [members, entry, fields, Member.name, schemaVersionName, Field.blockName, factOf]
  rw [factsOf, hkept, entriesOf_eq_map, List.map_map]
  refine List.map_congr_left fun f _ => ?_
  exact Prod.ext rfl (Fact.toLiteral_toJson (d.fact f))

theorem ofEntries_factsOf {d : Descriptor} (h : d.WellFormed) :
    Descriptor.ofEntries (factsOf (members.map (entry d))) = .sound d := by
  rw [factsOf_members]
  exact Descriptor.ofEntries_blockNames h mem_fields

/-- **Well-formed descriptors with the same bytes are equal.** -/
theorem eq_of_bytes_eq {d d' : Descriptor} (h : d.WellFormed) (h' : d'.WellFormed)
    (hbytes : bytes d = bytes d') : d = d' := by
  have hread := ofBytes?_bytes d
  rw [hbytes, ofBytes?_bytes d'] at hread
  have hmembers : members.map (entry d') = members.map (entry d) := by
    simpa using hread
  have hd := ofEntries_factsOf h
  rw [← hmembers, ofEntries_factsOf h'] at hd
  exact (Checked.sound.inj hd).symm

end Block

/-- **A file that holds the block of a well-formed descriptor is loaded as that descriptor.** -/
theorem Machine.load_of_node {m : Machine} {directory : Pathname} {d : Descriptor} (h : d.WellFormed)
    (hfile : m.node (directory.child Block.fileName) = .ok (.file (Block.bytes d))) :
    m.load directory = .ok d := by
  have hsound : (Descriptor.ofEntries
      (Block.factsOf (Block.members.map (Block.entry d)))).surfaced = .ok d :=
    Checked.surfaced_eq_ok_iff.mpr (Block.ofEntries_factsOf h)
  simp only [load, isFile, read, hfile, Block.ofBytes?_bytes, hsound]
  rfl

theorem Block.schemaFinding?_members (d : Descriptor) :
    schemaFinding? (members.map (entry d)) = none := by
  rfl

/-- The block of a well-formed descriptor is valid without any finding, strictly or not. -/
theorem Machine.validate_of_node {m : Machine} {directory : Pathname} {d : Descriptor} (h : d.WellFormed)
    (hdirectory : m.isDirectory directory = true)
    (hfile : m.node (directory.child Block.fileName) = .ok (.file (Block.bytes d))) (strict : Bool) :
    m.validate directory strict = {} := by
  have hsound : (Descriptor.ofEntries
      (Block.factsOf (Block.members.map (Block.entry d)))).surfaced = .ok d :=
    Checked.surfaced_eq_ok_iff.mpr (Block.ofEntries_factsOf h)
  have hpresent : m.isPresent directory = true := isPresent_iff.mpr ⟨_, isDirectory_iff.mp hdirectory⟩
  have hthere : m.isPresent (directory.child Block.fileName) = true := isPresent_iff.mpr ⟨_, hfile⟩
  have hread : m.read (directory.child Block.fileName) = .ok (Block.bytes d) := read_eq_ok_iff.mpr hfile
  simp only [validate, hpresent, hdirectory, hthere, hread, Block.ofBytes?_bytes, Block.inspect, hsound,
    Block.schemaFinding?_members]
  rfl

theorem Block.isEntryName_fileName : Machine.IsEntryName Block.fileName := by
  decide +kernel

/-- **The block of a validated descriptor can be written into any directory that has nothing else of its
name, a written block is loaded as that descriptor, and no other validated descriptor has its bytes.** -/
theorem Block.written_and_loaded {literal : Literal} {d : Descriptor}
    (h : Descriptor.ofLiteral literal = .sound d) :
    (∀ (m : Machine) (directory : Pathname) (l : Location),
        m.locate true directory = .ok (.found l .directory) →
          (∀ n, m.tree.get? (l ++ [fileName]) = some n → ∃ data, n = .file data) →
            ∃ tree, m.write (directory.child fileName) (bytes d) = .ok tree) ∧
      (∀ (m : Machine) (directory : Pathname) (tree : FileTree),
        m.write (directory.child fileName) (bytes d) = .ok tree →
          { m with tree := tree }.load directory = .ok d) ∧
      ∀ (literal' : Literal) (d' : Descriptor), Descriptor.ofLiteral literal' = .sound d' →
        bytes d' = bytes d → d' = d := by
  have hd : d.WellFormed := Descriptor.wellFormed_of_ofLiteral h
  refine ⟨?_, ?_, ?_⟩
  · intro m directory l hdirectory hfile
    have hroot : l ++ [fileName] ≠ [] := List.append_ne_nil_of_right_ne_nil l (List.cons_ne_nil _ _)
    exact ⟨_, Machine.write_child isEntryName_fileName (bytes d) hdirectory ⟨hroot, hfile⟩⟩
  · intro m directory tree hwrite
    exact Machine.load_of_node hd (Machine.node_write hwrite)
  · intro literal' d' h' hbytes
    exact eq_of_bytes_eq (Descriptor.wellFormed_of_ofLiteral h') hd hbytes

/-- A literal whose texts need every kind of escape, with an identifier and versions that are not written
as a descriptor keeps them. -/
def Block.escapedLiteral : Literal :=
  .table
    [("title", .text "a \"b\" \\ \x00\x08\t\n\x0c\r\x1f\x7f é 𝄞"), ("organization", .text "O\n"),
      ("product_name", .text "/"), ("uniqueId", .text "97DB45A8-F922-456A-A819-7B3C6E5E03BA"),
      ("assembly_version", .text " 01.2.3.65534 "),
      ("fileVersion", .list [.integer 1, .integer 0, .integer 0, .integer 7]),
      ("interop_visible", .text "YES"), ("internal_access_grant", .text "Other.Tests")]

/-- The descriptor of that literal. -/
def Block.escapedDescriptor : Descriptor where
  title := "a \"b\" \\ \x00\x08\t\n\x0c\r\x1f\x7f é 𝄞"
  description := ""
  configurationTag := ""
  organization := "O\n"
  productName := "/"
  copyright := ""
  trademark := ""
  culture := ""
  uniqueId := "97db45a8-f922-456a-a819-7b3c6e5e03ba"
  assemblyVersion := ⟨1, 2, 3, 65534⟩
  fileVersion := ⟨1, 0, 0, 7⟩
  interopVisible := true
  complianceChecked := false
  internalAccessGrant := some "Other.Tests"

/-- The block with every escape goes into the root of an empty tree and comes back. -/
theorem Block.escaped_written_and_loaded :
    Descriptor.ofLiteral escapedLiteral = .sound escapedDescriptor ∧
      ∃ tree, (Machine.mk .empty [] none [] ⟨true, []⟩).write ⟨true, [fileName]⟩
          (bytes escapedDescriptor) = .ok tree ∧
        (Machine.mk tree [] none [] ⟨true, []⟩).load ⟨true, []⟩ = .ok escapedDescriptor := by
  have hsound : Descriptor.ofLiteral escapedLiteral = .sound escapedDescriptor := by decide +kernel
  obtain ⟨hwritten, hloaded, -⟩ := written_and_loaded hsound
  obtain ⟨tree, hwrite⟩ := hwritten (.mk .empty [] none [] ⟨true, []⟩) ⟨true, []⟩ [] rfl (by
    intro n hn
    cases hn)
  exact ⟨hsound, tree, hwrite, hloaded (.mk .empty [] none [] ⟨true, []⟩) ⟨true, []⟩ tree hwrite⟩

end ArtifactIdentity
