import ArtifactIdentity.Config.Loading
import ArtifactIdentity.Proofs.Descriptor.WellFormed
import ArtifactIdentity.Proofs.Files.Walk

/-!
# What a configuration keeps of its tables

A setting is told by what stands under its name: the default where nothing does, and otherwise what the rule
of the setting makes of the literal. So a section is told by the literals under the names of its settings,
and a configuration by its sections.
-/

namespace ArtifactIdentity

/-! ## Settings -/

theorem setting_eq_sound_iff {α : Type} {name : String} {entries : Entries} {default value : α}
    {accept : Literal → Except Problem α} :
    setting name entries default accept = .sound value ↔
      ((entries.lookup name).map accept).getD (.ok default) = .ok value := by
  unfold setting
  cases entries.lookup name with
  | none => simp
  | some l => cases h : accept l <;> simp [h]

theorem strangeKeys_eq_nil_iff {names : List String} {entries : Entries} :
    strangeKeys names entries = [] ↔ ∀ e ∈ entries, e.1 ∈ names := by
  simp [strangeKeys, List.filter_eq_nil_iff]

theorem Checked.inside_eq_sound_iff {α : Type} {x : Checked α} {name : String} {value : α} :
    x.inside name = .sound value ↔ x = .sound value := by
  cases x <;> simp [inside]

/-! ## The source of a descriptor -/

namespace Source

variable {entries : Entries} {s : Source}

/-- The literal that a source keeps for a field: of the identity what is written, and otherwise what the rule
for settings makes of it. -/
def kept (f : Field) (given : Option Literal) : Except Problem Literal :=
  match f with
  | .title | .organization | .productName | .uniqueId | .assemblyVersion | .fileVersion =>
    .ok (given.getD .absent)
  | .description | .configurationTag | .copyright | .trademark | .culture =>
    ((given.map Coercion.text).getD (.ok "")).map Literal.text
  | .interopVisible | .complianceChecked =>
    ((given.map Coercion.flag).getD (.ok false)).map Literal.flag
  | .internalAccessGrant =>
    ((given.map grant).getD (.ok none)).map fun name => (name.map Literal.text).getD .absent

/-- **A source keeps of every field what stands under its name, and there are no further keys.** -/
theorem kept_of_ofEntries (h : ofEntries entries = .sound s) :
    (∀ f, kept f (entries.lookup f.name) = .ok (s.get f)) ∧
      ∀ e ∈ entries, ∃ f : Field, e.1 = f.name := by
  rw [ofEntries, Checked.alsoFlawed_eq_sound_iff, strangeKeys_eq_nil_iff] at h
  obtain ⟨h, hkeys⟩ := h
  constructor
  · simp only [rawSetting, textSetting, flagSetting, Checked.ap_eq_sound_iff, Checked.map_eq_sound_iff,
      setting_eq_sound_iff] at h
    obtain ⟨_, _, ⟨_, _, ⟨_, _, ⟨_, _, ⟨_, _, ⟨_, _, ⟨_, _, ⟨_, _, ⟨_, _, ⟨_, _, ⟨_, _, ⟨_, _, ⟨_, _,
      ⟨_, h1, rfl⟩, h2, rfl⟩, h3, rfl⟩, h4, rfl⟩, h5, rfl⟩, h6, rfl⟩, h7, rfl⟩, h8, rfl⟩, h9, rfl⟩,
      h10, rfl⟩, h11, rfl⟩, h12, rfl⟩, h13, rfl⟩, h14, rfl⟩ := h
    have raw {f : Field} {l : Literal}
        (h : ((entries.lookup f.name).map asWritten).getD (.ok .absent) = .ok l) :
        (.ok ((entries.lookup f.name).getD .absent) : Except Problem Literal) = .ok l := by
      rw [← h]
      cases entries.lookup f.name <;> rfl
    intro f
    cases f
    · exact raw h1
    · exact congrArg (Except.map Literal.text) h2
    · exact congrArg (Except.map Literal.text) h3
    · exact raw h4
    · exact raw h5
    · exact congrArg (Except.map Literal.text) h6
    · exact congrArg (Except.map Literal.text) h7
    · exact congrArg (Except.map Literal.text) h8
    · exact raw h9
    · exact raw h10
    · exact raw h11
    · exact congrArg (Except.map Literal.flag) h12
    · exact congrArg (Except.map Literal.flag) h13
    · exact congrArg (Except.map fun name => (name.map Literal.text).getD .absent) h14
  · intro e he
    obtain ⟨f, -, hf⟩ := List.mem_map.mp (hkeys e he)
    exact ⟨f, hf.symm⟩

/-- The literals to declare are told by those of all fields but the grant. -/
theorem declaredFields_congr {s s' : Source} (h : ∀ f, f ≠ Field.internalAccessGrant → s.get f = s'.get f) :
    s.declaredFields = s'.declaredFields := by
  unfold declaredFields
  congr 1
  apply List.map_congr_left
  intro f hf
  rw [h f (of_decide_eq_true (List.mem_filter.mp hf).2)]

end Source

/-! ## Configurations -/

namespace Config

variable {entries raw : Entries} {config : Config}

/-- The sections of a configuration are read one by one. -/
theorem ofEntries_eq_sound (h : ofEntries entries = .sound config) :
    sectionOf sourceName "DescriptorSource" entries none (fun e => some <$> Source.ofEntries e) =
        .sound config.source ∧
      sectionOf buildName "BuildConfig" entries BuildSettings.default BuildSettings.ofEntries =
        .sound config.build := by
  rw [ofEntries, Checked.alsoFlawed_eq_sound_iff, Checked.ap_eq_sound_iff] at h
  obtain ⟨⟨_, build, hmk, hbuild, rfl⟩, -⟩ := h
  obtain ⟨source, hsource, rfl⟩ := Checked.map_eq_sound_iff.mp hmk
  exact ⟨hsource, hbuild⟩

/-- A section for the descriptor is the source that it is read as. -/
theorem exists_source (h : ofEntries entries = .sound config)
    (hraw : entries.lookup sourceName = some (.table raw)) :
    ∃ source, config.source = some source ∧ Source.ofEntries raw = .sound source := by
  have hsource := (ofEntries_eq_sound h).1
  simp only [sectionOf, hraw, Checked.inside_eq_sound_iff] at hsource
  obtain ⟨source, hread, hsome⟩ := Checked.map_eq_sound_iff.mp hsource
  exact ⟨source, hsome.symm, hread⟩

theorem ofBytes_eq_ok_iff {file : Pathname} {data : ByteArray} :
    ofBytes file data = .ok config ↔
      ∃ entries, Toml.ofBytes data = .ok entries ∧ ofEntries entries = .sound config := by
  unfold ofBytes
  cases hread : Toml.ofBytes data with
  | error flaw => cases flaw <;> simp
  | ok entries =>
    constructor
    · intro h
      refine ⟨entries, rfl, ?_⟩
      cases hconfig : ofEntries entries with
      | sound found =>
        simp only [hconfig] at h
        rw [Except.ok.inj h]
      | flawed first rest =>
        simp only [hconfig] at h
        cases h
    · rintro ⟨entries', hsame, hconfig⟩
      obtain rfl := Except.ok.inj hsame
      simp only [hconfig]

end Config

/-- The configuration of an artifact that has a file for it. -/
theorem Machine.loadConfig_of_node {m : Machine} {root : Pathname} {data : ByteArray}
    (h : m.node (Config.fileUnder root) = .ok (.file data)) :
    m.loadConfig root = Config.ofBytes (Config.fileUnder root) data := by
  simp only [loadConfig, isFile_iff.mpr ⟨data, h⟩, read_eq_ok_iff.mpr h, if_true]

/-- The configuration of an artifact is read from the document in its file. -/
theorem Machine.ofEntries_of_loadConfig {m : Machine} {root : Pathname} {data : ByteArray} {entries : Entries}
    {config : Config} (hfile : m.node (Config.fileUnder root) = .ok (.file data))
    (hread : Toml.ofBytes data = .ok entries) (hload : m.loadConfig root = .ok config) :
    Config.ofEntries entries = .sound config := by
  rw [loadConfig_of_node hfile, Config.ofBytes_eq_ok_iff] at hload
  obtain ⟨entries', hread', hconfig⟩ := hload
  obtain rfl := Except.ok.inj (hread.symm.trans hread')
  exact hconfig

end ArtifactIdentity
