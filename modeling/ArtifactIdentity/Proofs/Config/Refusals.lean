import ArtifactIdentity.Proofs.Config.Settings
import ArtifactIdentity.Proofs.Stamping
import ArtifactIdentity.Proofs.Toml.Flaws

/-!
# What loading a configuration comes to

A file that breaks the rules of the language or of the schema is refused as a configuration. Two other ends are
not refusals of that kind: the bytes of the file are no UTF-8, or its text holds a decimal integer of more digits
than are read as an integer. There are no further ends, whatever the file holds.
-/

namespace ArtifactIdentity

/-- Bytes that are read as a text are the bytes of the text. -/
theorem toUTF8_of_fromUTF8? {data : ByteArray} {s : String} (h : String.fromUTF8? data = some s) :
    s.toUTF8 = data := by
  unfold String.fromUTF8? at h
  split at h
  · obtain rfl := Option.some.inj h
    rfl
  · cases h

theorem fromUTF8?_eq_none_iff {data : ByteArray} :
    String.fromUTF8? data = none ↔ ∀ s : String, s.toUTF8 ≠ data := by
  constructor
  · rintro h s rfl
    rw [Json.fromUTF8?_toUTF8] at h
    cases h
  · intro h
    rw [Option.eq_none_iff_forall_ne_some]
    intro s hs
    exact h s (toUTF8_of_fromUTF8? hs)

/-! ## Bytes -/

theorem Toml.ofBytes_eq_notUnicode_iff {data : ByteArray} :
    ofBytes data = .error .notUnicode ↔ ∀ s : String, s.toUTF8 ≠ data := by
  rw [← fromUTF8?_eq_none_iff]
  unfold ofBytes
  cases String.fromUTF8? data with
  | none => simp
  | some s =>
    simp only [reduceCtorEq, iff_false]
    intro h
    -- No flaw of a text is about its bytes.
    cases isFlawOf_of_ofChars h

/-- What ends the reading of bytes, where they are a text. -/
theorem Toml.isFlawOf_of_ofBytes {data : ByteArray} {flaw : Flaw} (h : ofBytes data = .error flaw) :
    flaw = .notUnicode ∨ ∃ s : String, s.toUTF8 = data ∧ IsFlawOf s.toList flaw := by
  unfold ofBytes at h
  split at h
  · rename_i s hs
    exact Or.inr ⟨s, toUTF8_of_fromUTF8? hs, isFlawOf_of_ofChars h⟩
  · exact Or.inl (Except.error.inj h).symm

namespace Config

variable {file : Pathname} {data : ByteArray}

theorem ofBytes_eq_encoding_iff :
    ofBytes file data = .error .encoding ↔ ∀ s : String, s.toUTF8 ≠ data := by
  rw [← Toml.ofBytes_eq_notUnicode_iff]
  unfold ofBytes
  cases Toml.ofBytes data with
  | error flaw => cases flaw <;> simp
  | ok entries => cases h : ofEntries entries <;> simp [h]

/-- A configuration is refused as no document or as an invalid one, and the refusal names the file. -/
inductive Refused (file : Pathname) : ConfigError → Prop
  | notToml : Refused file (.notToml file)
  | invalid (first : Issue) (rest : List Issue) : Refused file (.invalid file first rest)

/-- Reading bytes as a configuration comes to one of four ends. -/
theorem ofBytes_cases (file : Pathname) (data : ByteArray) :
    (∃ config, ofBytes file data = .ok config) ∨
      (∃ e, ofBytes file data = .error (.config e) ∧ Refused file e) ∨
      ofBytes file data = .error .encoding ∨
      ∃ (s : String) (n : Nat), ofBytes file data = .error (.digits (.reading n)) ∧ s.toUTF8 = data ∧
        Version.maxDigits < n ∧ Toml.HoldsDecimal s.toList n := by
  unfold ofBytes
  cases hread : Toml.ofBytes data with
  | ok entries =>
    cases hconfig : ofEntries entries with
    | sound config => exact Or.inl ⟨config, by simp only [hconfig]⟩
    | flawed first rest => exact Or.inr (Or.inl ⟨_, by simp only [hconfig], .invalid first rest⟩)
  | error flaw =>
    rcases Toml.isFlawOf_of_ofBytes hread with rfl | ⟨s, hs, hflaw⟩
    · exact Or.inr (Or.inr (Or.inl rfl))
    · cases hflaw with
      | malformed => exact Or.inr (Or.inl ⟨_, rfl, .notToml⟩)
      | digits hlong hholds => exact Or.inr (Or.inr (Or.inr ⟨s, _, rfl, hs, hlong, hholds⟩))

end Config

/-! ## Files -/

namespace Machine

variable {m : Machine} {root : Pathname}

/-- An artifact has a file for its configuration, or the default configuration. -/
theorem loadConfig_cases (m : Machine) (root : Pathname) :
    (∃ data, m.node (Config.fileUnder root) = .ok (.file data)) ∨
      (∀ data, m.node (Config.fileUnder root) ≠ .ok (.file data)) ∧ m.loadConfig root = .ok .default := by
  cases hfile : m.isFile (Config.fileUnder root) with
  | true => exact Or.inl (isFile_iff.mp hfile)
  | false =>
    refine Or.inr ⟨?_, by simp [loadConfig, hfile]⟩
    intro data hdata
    rw [isFile_iff.mpr ⟨data, hdata⟩] at hfile
    cases hfile

/-- **A configuration is returned, or its file is refused as a configuration, unless the bytes of the file are
no UTF-8 or the text of the file holds a decimal integer of too many digits. The first of these always ends the
loading, and no other failure comes out of it.** -/
theorem loadConfig_returns_or_refuses (m : Machine) (root : Pathname) :
    ((∃ config, m.loadConfig root = .ok config) ∨
        (∃ e, m.loadConfig root = .error (.config e) ∧ Config.Refused (Config.fileUnder root) e) ∨
        m.loadConfig root = .error .encoding ∨
        ∃ (s : String) (n : Nat), m.loadConfig root = .error (.digits (.reading n)) ∧
          m.node (Config.fileUnder root) = .ok (.file s.toUTF8) ∧ 4300 < n ∧
          Toml.HoldsDecimal s.toList n) ∧
      (m.loadConfig root = .error .encoding ↔
        ∃ data, m.node (Config.fileUnder root) = .ok (.file data) ∧ ∀ s : String, s.toUTF8 ≠ data) := by
  rcases loadConfig_cases m root with ⟨data, hfile⟩ | ⟨hnone, hload⟩
  · rw [loadConfig_of_node hfile]
    constructor
    · rcases Config.ofBytes_cases (Config.fileUnder root) data with hok | hrefused | hbytes | hdigits
      · exact Or.inl hok
      · exact Or.inr (Or.inl hrefused)
      · exact Or.inr (Or.inr (Or.inl hbytes))
      · rcases hdigits with ⟨s, n, hread, rfl, hlong, hholds⟩
        exact Or.inr (Or.inr (Or.inr ⟨s, n, hread, hfile, hlong, hholds⟩))
    · rw [Config.ofBytes_eq_encoding_iff]
      constructor
      · intro hbytes
        exact ⟨data, hfile, hbytes⟩
      · rintro ⟨data', hfile', hbytes⟩
        obtain rfl := Node.file.inj (Except.ok.inj (hfile.symm.trans hfile'))
        exact hbytes
  · rw [hload]
    refine ⟨Or.inl ⟨_, rfl⟩, ?_⟩
    constructor
    · intro h
      cases h
    · rintro ⟨data, hfile, -⟩
      exact absurd hfile (hnone data)

/-- An artifact with a configuration of one byte that begins no character. -/
def undecodableSample : Machine :=
  sample [(["art", "descriptor.toml"], .file ⟨#[0xFF]⟩)]

/-- An artifact with a configuration that sets a key to an integer of 4301 digits. -/
def overlongSample : Machine :=
  sample [(["art", "descriptor.toml"],
    .file (String.ofList ('x' :: '=' :: List.replicate 4301 '1')).toUTF8)]

/-- Neither is refused as a configuration. -/
theorem loadConfig_fails_otherwise :
    undecodableSample.loadConfig ⟨true, ["art"]⟩ = .error .encoding ∧
      overlongSample.loadConfig ⟨true, ["art"]⟩ = .error (.digits (.reading 4301)) := by
  constructor
  · have hfile : undecodableSample.node (Config.fileUnder ⟨true, ["art"]⟩) = .ok (.file ⟨#[0xFF]⟩) := rfl
    rw [loadConfig_of_node hfile, Config.ofBytes_eq_encoding_iff, ← fromUTF8?_eq_none_iff]
    decide +kernel
  · have hfile : overlongSample.node (Config.fileUnder ⟨true, ["art"]⟩) =
        .ok (.file (String.ofList ('x' :: '=' :: List.replicate 4301 '1')).toUTF8) := rfl
    have hwhole : Toml.IsWhole (List.replicate 4301 '1') := by
      constructor
      · intro c hc
        rw [List.eq_of_mem_replicate hc]
        decide
      · exact ⟨'1', List.replicate 4300 '1', List.replicate_succ, by decide⟩
    have hlong : Version.maxDigits < (List.replicate 4301 '1').length := by
      rw [List.length_replicate]
      decide
    have hread := Toml.ofChars_of_isWhole hwhole hlong
    rw [List.length_replicate] at hread
    rw [loadConfig_of_node hfile, Config.ofBytes, Toml.ofBytes_toUTF8, String.toList_ofList, hread]

end Machine

end ArtifactIdentity
