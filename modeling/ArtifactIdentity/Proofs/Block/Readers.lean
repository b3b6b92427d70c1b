import ArtifactIdentity.Proofs.Block.RoundTrip
import ArtifactIdentity.Proofs.Descriptor.Surfacing

/-!
# The two readers of a block

Validation and loading ask about the files in ways of their own, and only validation looks at the version of
the schema. What they say together is one verdict out of ten, and everything that holds of both is read off
the verdict. The messages are told apart by the words with which they begin.
-/

namespace ArtifactIdentity

namespace Block

/-! ## Verdicts -/

/-- What the readers can say of a directory: the findings of validation, lenient and strict, what loading
gives, and whether the block is a file. -/
inductive Verdict (file : Pathname) :
    (lenient strict : Inspection) → Except LoadError Descriptor → (isFile : Bool) → Prop where
  | noDirectory :
    Verdict file ⟨[.noDirectory], []⟩ ⟨[.noDirectory], []⟩ (.error (.noBlock file)) false
  | notADirectory :
    Verdict file ⟨[.notADirectory], []⟩ ⟨[.notADirectory], []⟩ (.error (.noBlock file)) false
  | noBlock : Verdict file ⟨[.noBlock], []⟩ ⟨[.noBlock], []⟩ (.error (.noBlock file)) false
  /-- What stands there cannot be read, which validation takes for bad JSON and loading for no block. -/
  | notAFile : Verdict file ⟨[.notJson], []⟩ ⟨[.notJson], []⟩ (.error (.noBlock file)) false
  | notJson : Verdict file ⟨[.notJson], []⟩ ⟨[.notJson], []⟩ (.error .notJson) true
  | notObject : Verdict file ⟨[.notObject], []⟩ ⟨[.notObject], []⟩ (.error (.notObject file)) true
  | refused (x : Malformed) :
    Verdict file ⟨[.refused (.malformed x)], []⟩ ⟨[.refused (.malformed x)], []⟩
      (.error (.refused (.malformed x))) true
  | mismatch (version : Literal) (d : Descriptor) (hversion : version.isWritable = true)
      (hd : d.WellFormed) :
    Verdict file ⟨[.schemaMismatch version], []⟩ ⟨[.schemaMismatch version], []⟩ (.ok d) true
  | unversioned (d : Descriptor) (hd : d.WellFormed) :
    Verdict file ⟨[], [.noSchemaVersion]⟩ ⟨[.noSchemaVersion], []⟩ (.ok d) true
  | valid (d : Descriptor) (hd : d.WellFormed) : Verdict file ⟨[], []⟩ ⟨[], []⟩ (.ok d) true

/-- What both readers accept is a well-formed descriptor. -/
theorem Verdict.wellFormed {file : Pathname} {lenient strict : Inspection} {d : Descriptor}
    {isFile : Bool} (h : Verdict file lenient strict (.ok d) isFile) : d.WellFormed := by
  cases h with
  | mismatch _ _ _ hd | unversioned _ hd | valid _ hd => exact hd

/-- The facts of an object that can be shown can be shown. -/
theorem entriesWritable_factsOf {members : List (String × Json)} (h : (Json.object members).IsWritable) :
    Literal.entriesWritable (factsOf members) = true := by
  have hkept : (Json.object (members.filter (·.1 ≠ schemaVersionName))).IsWritable := by
    rw [Json.isWritable_object_iff] at h ⊢
    intro e he
    exact h e (List.mem_filter.mp he).1
  exact hkept

/-- The version of the schema is right, missing, or another literal that can be shown. -/
theorem schemaFinding?_cases {members : List (String × Json)} (h : (Json.object members).IsWritable) :
    schemaFinding? members = none ∨ schemaFinding? members = some .noSchemaVersion ∨
      ∃ version, version.isWritable = true ∧
        schemaFinding? members = some (.schemaMismatch version) := by
  unfold schemaFinding?
  cases hlookup : members.lookup schemaVersionName with
  | none => exact Or.inr (Or.inl rfl)
  | some v =>
    dsimp only
    split
    · exact Or.inl rfl
    · have hv := Json.isWritable_object_iff.mp h _ (Table.mem_of_lookup hlookup)
      exact Or.inr (Or.inr ⟨v.toLiteral, hv, rfl⟩)

/-- An object is refused by both readers or read by both. -/
theorem verdict_of_object (file : Pathname) {members : List (String × Json)}
    (h : (Json.object members).IsWritable) :
    Verdict file (inspect false (.object members)) (inspect true (.object members))
      (match (Descriptor.ofEntries (factsOf members)).surfaced with
        | .ok d => .ok d
        | .error fault => .error (.refused fault)) true := by
  simp only [inspect]
  cases hread : (Descriptor.ofEntries (factsOf members)).surfaced with
  | error fault =>
    obtain ⟨x, rfl⟩ := Descriptor.malformed_of_surfaced (entriesWritable_factsOf h) hread
    exact .refused x
  | ok d =>
    have hsound := Checked.surfaced_eq_ok_iff.mp hread
    have hd : d.WellFormed :=
      Descriptor.wellFormed_of_statedBy (Descriptor.ofEntries_eq_sound_iff.mp hsound).1
    rcases schemaFinding?_cases h with hnone | hmissing | ⟨version, hversion, hmismatch⟩
    · simp only [hnone]
      exact .valid d hd
    · simp only [hmissing]
      exact .unversioned d hd
    · simp only [hmismatch]
      exact .mismatch version d hversion hd

end Block

/-! ## What is asked about the files -/

namespace Machine

variable (m : Machine) (directory : Pathname)

/-- A directory is above everything that is found in it. -/
theorem node_of_child {n : Node} (h : m.node (directory.child Block.fileName) = .ok n) :
    m.node directory = .ok .directory := by
  obtain ⟨l, hl⟩ := node_eq_ok_iff.mp h
  obtain ⟨l', hl', -⟩ := locate_of_child Block.isEntryName_fileName hl
  exact node_eq_ok_iff.mpr ⟨l', hl'⟩

/-- **The two readers come to one verdict on every directory.** -/
theorem verdict :
    Block.Verdict (directory.child Block.fileName) (m.validate directory false)
      (m.validate directory true) (m.load directory) (m.isFile (directory.child Block.fileName)) := by
  cases hfile : m.node (directory.child Block.fileName) with
  | error e =>
    cases hdirectory : m.node directory with
    | error e =>
      simp only [validate, load, isPresent, isFile, hdirectory, hfile]
      exact .noDirectory
    | ok n =>
      simp only [validate, load, isPresent, isDirectory, isFile, hdirectory, hfile]
      cases n with
      | directory => exact .noBlock
      | file data | link target => exact .notADirectory
  | ok n =>
    simp only [validate, load, isPresent, isDirectory, isFile, read, node_of_child m directory hfile,
      hfile]
    cases n with
    | link target | directory => exact .notAFile
    | file data =>
      cases hjson : Json.ofBytes? data with
      | none =>
        simp only [hjson]
        exact .notJson
      | some json =>
        simp only [hjson]
        have hwritable := Json.isWritable_of_ofBytes? hjson
        cases json with
        | object members => exact Block.verdict_of_object _ hwritable
        | _ => exact .notObject

end Machine

/-- The block of a directory is loaded only as a well-formed descriptor. -/
theorem Machine.wellFormed_of_load {m : Machine} {directory : Pathname} {d : Descriptor}
    (h : m.load directory = .ok d) : d.WellFormed := by
  have hverdict := m.verdict directory
  rw [h] at hverdict
  exact hverdict.wellFormed

/-! ## Objects -/

/-- The block of a directory is a file that holds a JSON object. -/
def Machine.HoldsObject (m : Machine) (directory : Pathname) (members : List (String × Json)) : Prop :=
  ∃ data, m.node (directory.child Block.fileName) = .ok (.file data) ∧
    Json.ofBytes? data = some (.object members)

/-- The facts that stand in a text, if it is an object. -/
def Block.factsIn? (text : String) : Option Entries :=
  match Json.ofChars? text.toList with
  | some (.object members) => some (factsOf members)
  | _ => none

namespace Machine

variable {m : Machine} {directory : Pathname} {members : List (String × Json)}

theorem holdsObject_of_factsIn? {text : String} {facts : Entries}
    (hfile : m.node (directory.child Block.fileName) = .ok (.file text.toUTF8))
    (h : Block.factsIn? text = some facts) :
    ∃ members, m.HoldsObject directory members ∧ Block.factsOf members = facts := by
  unfold Block.factsIn? at h
  split at h
  · rename_i members hjson
    exact ⟨members, ⟨_, hfile, (Json.ofBytes?_toUTF8 text).trans hjson⟩, Option.some.inj h⟩
  · cases h

/-- What is loaded is read from the facts of the object. -/
theorem load_of_object (h : m.HoldsObject directory members) :
    m.load directory = (Descriptor.ofEntries (Block.factsOf members)).surfaced.mapError .refused := by
  obtain ⟨data, hfile, hjson⟩ := h
  simp only [load, isFile, read, hfile, hjson]
  cases (Descriptor.ofEntries (Block.factsOf members)).surfaced <;> rfl

/-- An object is loaded as a descriptor or refused for a malformed identity. -/
theorem loaded_or_malformed (h : m.HoldsObject directory members) :
    (∃ d, m.load directory = .ok d) ∨ ∃ x, m.load directory = .error (.refused (.malformed x)) := by
  rw [load_of_object h]
  obtain ⟨data, -, hjson⟩ := h
  cases hread : (Descriptor.ofEntries (Block.factsOf members)).surfaced with
  | ok d => exact Or.inl ⟨d, rfl⟩
  | error fault =>
    obtain ⟨x, rfl⟩ := Descriptor.malformed_of_surfaced
      (Block.entriesWritable_factsOf (Json.isWritable_of_ofBytes? hjson)) hread
    exact Or.inr ⟨x, rfl⟩

/-- Only an object is loaded as a descriptor. -/
theorem holdsObject_of_load {d : Descriptor} (h : m.load directory = .ok d) :
    ∃ members, m.HoldsObject directory members := by
  unfold load at h
  dsimp only at h
  split at h
  · cases h
  · split at h
    · cases h
    · rename_i data hread
      split at h
      · cases h
      · rename_i members hjson
        exact ⟨members, data, read_eq_ok_iff.mp hread, hjson⟩
      · cases h

end Machine

/-! ## Messages -/

namespace Finding

variable {f : Finding} {detail s : String}

/-- The words with which the message of a finding begins. -/
def opening : Finding → String
  | .noDirectory => "Artifacts directory does not exist."
  | .notADirectory => "Artifacts path is not a directory."
  | .noBlock => "Required metadata block is missing."
  | .notJson => "Invalid JSON: "
  | .notObject => "Expected JSON object for "
  | .refused _ => "Schema validation failed: "
  | .schemaMismatch _ => "Schema version mismatch: expected "
  | .noSchemaVersion => "Missing "

theorem opening_prefix_text (f : Finding) (detail : String) :
    f.opening.toList <+: (f.text detail).toList := by
  have happend (a b : String) : a.toList <+: (a ++ b).toList := by
    rw [String.toList_append]
    exact List.prefix_append _ _
  cases f with
  | noDirectory | notADirectory | noBlock => exact List.prefix_rfl
  | notJson | notObject | refused fault | schemaMismatch version | noSchemaVersion =>
    unfold text opening
    simp only [String.append_assoc]
    exact happend _ _

/-- A message that begins with some words agrees with them as far as its opening goes. -/
theorem opening_of_text {words rest : String} (h : f.text detail = words ++ rest) :
    f.opening.toList <+: words.toList ∨ words.toList <+: f.opening.toList := by
  have hwords : words.toList <+: (f.text detail).toList := by
    rw [h, String.toList_append]
    exact List.prefix_append _ _
  exact List.prefix_or_prefix_of_prefix (f.opening_prefix_text detail) hwords

theorem text_eq_refused_iff :
    f.text detail = "Schema validation failed: " ++ s ++ "." ↔
      ∃ fault, f = .refused fault ∧ fault.message = s := by
  constructor
  · intro h
    have hopening := opening_of_text (h.trans String.append_assoc)
    cases f with
    | refused fault =>
      have h : "Schema validation failed: " ++ fault.message ++ "." =
        "Schema validation failed: " ++ s ++ "." := h
      rw [String.append_left_inj, String.append_right_inj] at h
      exact ⟨fault, rfl, h⟩
    | _ =>
      simp only [opening] at hopening
      exact absurd hopening (by decide +kernel)
  · rintro ⟨fault, rfl, rfl⟩
    rfl

theorem text_eq_notObject_iff :
    f.text detail = "Expected JSON object for descriptor.json." ↔ f = .notObject := by
  constructor
  · intro h
    have hopening := @opening_of_text f detail "Expected JSON object for " "descriptor.json." h
    cases f with
    | notObject => rfl
    | _ =>
      simp only [opening] at hopening
      exact absurd hopening (by decide +kernel)
  · rintro rfl
    rfl

theorem text_eq_notJson_iff :
    (∃ reason, f.text detail = "Invalid JSON: " ++ reason ++ ".") ↔ f = .notJson := by
  constructor
  · rintro ⟨reason, h⟩
    have hopening := opening_of_text (h.trans String.append_assoc)
    cases f with
    | notJson => rfl
    | _ =>
      simp only [opening] at hopening
      exact absurd hopening (by decide +kernel)
  · rintro rfl
    exact ⟨detail, rfl⟩

/-- A finding can be put into words: the version in it can be shown, and its fault is a malformed identity and
not the limit on digits, which is met where a literal cannot be shown. -/
def IsShown : Finding → Prop
  | .refused fault => ∃ x, fault = .malformed x
  | .schemaMismatch version => version.isWritable = true
  | _ => True

end Finding

/-! ## Agreement -/

/-- How the findings of validation and the result of loading go together. -/
structure Block.Agree (file : Pathname) (lenient strict : Inspection)
    (loaded : Except LoadError Descriptor) (isFile : Bool) : Prop where
  /-- There is one message at most. -/
  atMostOne : lenient.errors.length + lenient.warnings.length ≤ 1 ∧
    strict.errors.length + strict.warnings.length ≤ 1
  /-- No message fails for what it has to show. -/
  shown : ∀ f ∈ lenient.errors ++ lenient.warnings, f.IsShown
  /-- Strictness makes an error of the one warning there is. -/
  strictly : strict = ⟨lenient.errors ++ lenient.warnings, []⟩
  warning : ∀ f ∈ lenient.warnings, f = .noSchemaVersion
  /-- A descriptor is loaded also where only the version of the schema is wrong. -/
  descriptor : (∃ d, loaded = .ok d) ↔
    lenient.errors = [] ∨ ∃ version, lenient.errors = [.schemaMismatch version]
  refused : ∀ fault, loaded = .error (.refused fault) ↔ lenient.errors = [.refused fault]
  /-- The message of validation holds the message of loading. -/
  refusedText : ∀ detail s,
    (∃ x, loaded = .error (.refused (.malformed x)) ∧ x.message = s) ↔
      lenient.errors.map (·.text detail) = ["Schema validation failed: " ++ s ++ "."]
  notObject : ∀ detail, loaded = .error (.notObject file) ↔
    lenient.errors.map (·.text detail) = ["Expected JSON object for descriptor.json."]
  notJson : ∀ detail, loaded = .error .notJson ↔
    isFile = true ∧
      ∃ reason, lenient.errors.map (·.text detail) = ["Invalid JSON: " ++ reason ++ "."]
  /-- For loading there is no block in the cases that remain: there is no directory, it is none, nothing is
  there, or what is there is no file. -/
  noBlock : loaded = .error (.noBlock file) ↔
    lenient.errors = [.noDirectory] ∨ lenient.errors = [.notADirectory] ∨
      lenient.errors = [.noBlock] ∨ lenient.errors = [.notJson] ∧ isFile = false
  noFile : loaded = .error (.noBlock file) ↔ isFile = false

namespace Block.Verdict

variable {file : Pathname} {lenient strict : Inspection} {loaded : Except LoadError Descriptor}
  {isFile : Bool}

theorem atMostOne (h : Verdict file lenient strict loaded isFile) :
    lenient.errors.length + lenient.warnings.length ≤ 1 ∧
      strict.errors.length + strict.warnings.length ≤ 1 := by
  cases h <;> simp

theorem shown (h : Verdict file lenient strict loaded isFile) :
    ∀ f ∈ lenient.errors ++ lenient.warnings, f.IsShown := by
  cases h with
  | refused x => simp [Finding.IsShown]
  | mismatch version d hversion => simp [Finding.IsShown, hversion]
  | _ => simp [Finding.IsShown]

theorem strict_eq (h : Verdict file lenient strict loaded isFile) :
    strict = ⟨lenient.errors ++ lenient.warnings, []⟩ ∧
      ∀ f ∈ lenient.warnings, f = .noSchemaVersion := by
  cases h <;> simp

theorem exists_ok_iff (h : Verdict file lenient strict loaded isFile) :
    (∃ d, loaded = .ok d) ↔
      lenient.errors = [] ∨ ∃ version, lenient.errors = [.schemaMismatch version] := by
  cases h <;> simp

theorem eq_refused_iff (h : Verdict file lenient strict loaded isFile) (fault : Fault) :
    loaded = .error (.refused fault) ↔ lenient.errors = [.refused fault] := by
  cases h <;> simp

theorem eq_notObject_iff (h : Verdict file lenient strict loaded isFile) :
    loaded = .error (.notObject file) ↔ lenient.errors = [.notObject] := by
  cases h <;> simp

theorem eq_notJson_iff (h : Verdict file lenient strict loaded isFile) :
    loaded = .error .notJson ↔ isFile = true ∧ lenient.errors = [.notJson] := by
  cases h <;> simp

theorem eq_noBlock_iff (h : Verdict file lenient strict loaded isFile) :
    loaded = .error (.noBlock file) ↔
      lenient.errors = [.noDirectory] ∨ lenient.errors = [.notADirectory] ∨
        lenient.errors = [.noBlock] ∨ lenient.errors = [.notJson] ∧ isFile = false := by
  cases h <;> simp

theorem eq_noBlock_iff_isFile (h : Verdict file lenient strict loaded isFile) :
    loaded = .error (.noBlock file) ↔ isFile = false := by
  cases h <;> simp

/-- The message of a malformed identity stands in the message of the finding. -/
theorem refused_message_iff (h : Verdict file lenient strict loaded isFile) (detail s : String) :
    (∃ x, loaded = .error (.refused (.malformed x)) ∧ x.message = s) ↔
      lenient.errors.map (·.text detail) = ["Schema validation failed: " ++ s ++ "."] := by
  rw [List.map_eq_singleton_iff]
  constructor
  · rintro ⟨x, hx, rfl⟩
    exact ⟨_, (h.eq_refused_iff _).mp hx, rfl⟩
  · rintro ⟨f, hf, htext⟩
    obtain ⟨fault, rfl, rfl⟩ := Finding.text_eq_refused_iff.mp htext
    have hmem : Finding.refused fault ∈ lenient.errors ++ lenient.warnings := by simp [hf]
    obtain ⟨x, rfl⟩ := h.shown _ hmem
    exact ⟨x, (h.eq_refused_iff _).mpr hf, rfl⟩

end Block.Verdict

/-- **Validation and loading agree on every directory.** -/
theorem Machine.validate_agrees_with_load (m : Machine) (directory : Pathname) :
    Block.Agree (directory.child Block.fileName) (m.validate directory false)
      (m.validate directory true) (m.load directory)
      (m.isFile (directory.child Block.fileName)) := by
  have h := m.verdict directory
  obtain ⟨hstrict, hwarning⟩ := h.strict_eq
  refine
    { atMostOne := h.atMostOne
      shown := h.shown
      strictly := hstrict
      warning := hwarning
      descriptor := h.exists_ok_iff
      refused := h.eq_refused_iff
      refusedText := h.refused_message_iff
      notObject := ?_
      notJson := ?_
      noBlock := h.eq_noBlock_iff
      noFile := h.eq_noBlock_iff_isFile }
  · intro detail
    rw [h.eq_notObject_iff, List.map_eq_singleton_iff]
    simp only [Finding.text_eq_notObject_iff, exists_eq_right]
  · intro detail
    rw [h.eq_notJson_iff]
    simp only [List.map_eq_singleton_iff]
    constructor
    · rintro ⟨hfile, hjson⟩
      obtain ⟨reason, hreason⟩ := Finding.text_eq_notJson_iff.mpr (rfl : Finding.notJson = .notJson)
      exact ⟨hfile, reason, _, hjson, hreason⟩
    · rintro ⟨hfile, reason, f, hf, htext⟩
      obtain rfl := Finding.text_eq_notJson_iff.mp ⟨reason, htext⟩
      exact ⟨hfile, hf⟩

/-- Where a directory stands in the place of the block, validation speaks of JSON and loading of no block. -/
example :
    let m : Machine := ⟨⟨[([Block.fileName], .directory)]⟩, [], none, [], ⟨true, []⟩⟩
    m.validate ⟨true, []⟩ false = ⟨[.notJson], []⟩ ∧
      m.load ⟨true, []⟩ = .error (.noBlock ⟨true, [Block.fileName]⟩) :=
  ⟨rfl, rfl⟩

end ArtifactIdentity
