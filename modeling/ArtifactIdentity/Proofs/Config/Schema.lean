import ArtifactIdentity.Proofs.Config.Declared

/-!
# What a configuration may hold

A configuration has two sections, and of each it is known which keys may stand in it and what each of them takes. A
document is accepted exactly where it holds nothing else, and then nothing in it is lost: a literal of the identity
is kept as it is written whatever it is, a text stays the text, a flag becomes what it stands for, and only what may
be left out has a default.
-/

namespace ArtifactIdentity

/-! ## Flags -/

/-- The words that stand for a flag, in lower case. -/
def Literal.flagWords : Bool → List String
  | false => ["0", "off", "f", "false", "n", "no"]
  | true => ["1", "on", "t", "true", "y", "yes"]

/-- A literal stands for a flag: it is the flag or its number, or a word for it whatever the case of its letters. -/
def Literal.StandsFor (l : Literal) (b : Bool) : Prop :=
  l.isNumber (if b then 1 else 0) = true ∨
    ∃ s, l = .text s ∧ String.ofList (s.toList.map Char.toLower) ∈ flagWords b

namespace Coercion

open Literal (flagWords)

variable {b : Bool}

theorem flagOfWord_eq_ok_iff {s : String} :
    flagOfWord s = .ok b ↔ String.ofList (s.toList.map Char.toLower) ∈ flagWords b := by
  have hdistinct : ∀ word ∈ flagWords true, word ∉ flagWords false := by decide
  have hno (word : String) : noWords.contains word = true ↔ word ∈ flagWords false := List.contains_iff_mem
  have hyes (word : String) : yesWords.contains word = true ↔ word ∈ flagWords true := List.contains_iff_mem
  simp only [flagOfWord, hno, hyes]
  split
  · rename_i hword
    cases b with
    | false => simp [hword]
    | true =>
      have hother : String.ofList (s.toList.map Char.toLower) ∉ flagWords true :=
        fun h => hdistinct _ h hword
      simp [hother]
  · rename_i hword
    cases b with
    | false => split <;> simp [hword]
    | true => split <;> simp [*]

theorem flagOfInt_eq_ok_iff {n : Int} : flagOfInt n = .ok b ↔ n = if b then 1 else 0 := by
  unfold flagOfInt
  cases b <;> split_ifs <;> simp_all

theorem flagOfFloat_eq_ok_iff {x : Binary64} :
    flagOfFloat x = .ok b ↔ x.toInt? = some (if b then 1 else 0) := by
  unfold flagOfFloat
  cases x.toInt? with
  | none => simp
  | some n =>
    dsimp only
    split
    · rename_i hmin
      subst hmin
      cases b <;> simp
    · rw [flagOfInt_eq_ok_iff, Option.some.injEq]

/-- **A value of a document is taken for a flag exactly where it stands for one.** -/
theorem flag_eq_ok_iff {l : Literal} (h : Toml.IsValue l) : flag l = .ok b ↔ l.StandsFor b := by
  cases h with
  | flag b' => cases b <;> cases b' <;> simp [flag, Literal.StandsFor, Literal.isNumber]
  | integer n => simp [flag, Literal.StandsFor, Literal.isNumber, flagOfInt_eq_ok_iff]
  | float x => simp [flag, Literal.StandsFor, Literal.isNumber, flagOfFloat_eq_ok_iff]
  | text s => simp [flag, Literal.StandsFor, Literal.isNumber, flagOfWord_eq_ok_iff]
  | _ => simp [flag, Literal.StandsFor, Literal.isNumber]

end Coercion

/-! ## The schema -/

/-- What may stand under the name of a field. The literals of the identity are not looked at. -/
def Field.TakesSetting : Field → Literal → Prop
  | .title, _ | .organization, _ | .productName, _ | .uniqueId, _ | .assemblyVersion, _ | .fileVersion, _ => True
  | .description, l | .configurationTag, l | .copyright, l | .trademark, l | .culture, l
  | .internalAccessGrant, l => ∃ s, l = .text s
  | .interopVisible, l | .complianceChecked, l => ∃ b, l.StandsFor b

/-- Each key of the section for the descriptor is the name of a field that takes what stands under it. -/
def Source.Conforms (raw : Entries) : Prop :=
  ∀ e ∈ raw, ∃ f : Field, e.1 = f.name ∧ f.TakesSetting e.2

/-- Each key of the section for the build is one of its two settings. -/
def BuildSettings.Conforms (raw : Entries) : Prop :=
  ∀ e ∈ raw, (e.1 = excludeTestsName ∧ ∃ b, e.2.StandsFor b) ∨ (e.1 = outputDirectoryName ∧ ∃ s, e.2 = .text s)

/-- Each key of a document is one of the two sections, and the section is a table that conforms. -/
def Config.Conforms (entries : Entries) : Prop :=
  ∀ e ∈ entries,
    (e.1 = sourceName ∧ ∃ raw, e.2 = .table raw ∧ Source.Conforms raw) ∨
      (e.1 = buildName ∧ ∃ raw, e.2 = .table raw ∧ BuildSettings.Conforms raw)

/-! ## What is accepted -/

theorem Toml.IsTable.lookup_eq_some_iff {entries : Entries} {name : String} {v : Literal} (h : IsTable entries) :
    entries.lookup name = some v ↔ (name, v) ∈ entries :=
  ⟨Table.mem_of_lookup, Table.lookup_of_mem h.distinct⟩

/-- A setting has no issue where its rule takes what is given. -/
theorem issues_setting_eq_nil_iff {α : Type} {name : String} {entries : Entries} {default : α}
    {accept : Literal → Except Problem α} :
    (setting name entries default accept).issues = [] ↔
      ∀ l, entries.lookup name = some l → ∃ a, accept l = .ok a := by
  unfold setting
  cases entries.lookup name with
  | none => simp [Checked.issues]
  | some l => cases h : accept l <;> simp [Checked.issues, h]

theorem Coercion.exists_text_iff {l : Literal} (h : Toml.IsValue l) :
    (∃ s, text l = .ok s) ↔ ∃ s, l = .text s := by
  cases h <;> simp [text]

theorem Source.exists_grant_iff {l : Literal} (h : Toml.IsValue l) :
    (∃ name, grant l = .ok name) ↔ ∃ s, l = .text s := by
  cases h <;> simp [grant, Coercion.text, Except.map]

/-- No two fields have one name. -/
theorem Field.name_injective {f g : Field} (h : f.name = g.name) : f = g := by
  have hf := ofSpelling?_name f
  rw [h, ofSpelling?_name] at hf
  exact (Option.some.inj hf).symm

namespace Source

variable {raw : Entries}

theorem Conforms.takes {f : Field} {l : Literal} (h : Conforms raw) (hl : raw.lookup f.name = some l) :
    f.TakesSetting l := by
  obtain ⟨g, hg, htakes⟩ := h _ (Table.mem_of_lookup hl)
  rw [Field.name_injective hg]
  exact htakes

/-- **A section for the descriptor is accepted exactly where it conforms.** -/
theorem exists_sound_iff (h : Toml.IsTable raw) : (∃ s, ofEntries raw = .sound s) ↔ Conforms raw := by
  have hraw (f : Field) : (rawSetting f raw).issues = [] :=
    issues_setting_eq_nil_iff.mpr fun l _ => ⟨l, rfl⟩
  have htext (f : Field) : (textSetting f raw).issues = [] ↔
      ∀ l, raw.lookup f.name = some l → ∃ s, l = .text s := by
    rw [textSetting, issues_setting_eq_nil_iff]
    exact forall₂_congr fun l hl => Coercion.exists_text_iff (h.isValue_of_lookup hl)
  have hflag (f : Field) : (flagSetting f raw).issues = [] ↔
      ∀ l, raw.lookup f.name = some l → ∃ b, l.StandsFor b := by
    rw [flagSetting, issues_setting_eq_nil_iff]
    exact forall₂_congr fun l hl => exists_congr fun b => Coercion.flag_eq_ok_iff (h.isValue_of_lookup hl)
  have hgrant : (setting Field.internalAccessGrant.name raw none grant).issues = [] ↔
      ∀ l, raw.lookup Field.internalAccessGrant.name = some l → ∃ s, l = .text s := by
    rw [issues_setting_eq_nil_iff]
    exact forall₂_congr fun l hl => exists_grant_iff (h.isValue_of_lookup hl)
  rw [← Checked.issues_eq_nil_iff, ofEntries, Checked.issues_alsoFlawed, List.append_eq_nil_iff,
    strangeKeys_eq_nil_iff]
  simp only [Checked.issues_ap, Checked.issues_map, List.append_eq_nil_iff, hraw, htext, hflag, hgrant,
    true_and, and_true]
  constructor
  · rintro ⟨⟨⟨⟨⟨⟨⟨⟨hdescription, htag⟩, hcopyright⟩, htrademark⟩, hculture⟩, hinterop⟩, hcompliance⟩,
      hname⟩, hkeys⟩ e he
    obtain ⟨f, -, hf⟩ := List.mem_map.mp (hkeys e he)
    have hlookup : raw.lookup f.name = some e.2 := by
      rw [h.lookup_eq_some_iff, hf]
      exact he
    refine ⟨f, hf.symm, ?_⟩
    cases f with
    | title | organization | productName | uniqueId | assemblyVersion | fileVersion => exact trivial
    | description => exact hdescription _ hlookup
    | configurationTag => exact htag _ hlookup
    | copyright => exact hcopyright _ hlookup
    | trademark => exact htrademark _ hlookup
    | culture => exact hculture _ hlookup
    | interopVisible => exact hinterop _ hlookup
    | complianceChecked => exact hcompliance _ hlookup
    | internalAccessGrant => exact hname _ hlookup
  · intro hconforms
    have htakes (f : Field) (l : Literal) (hl : raw.lookup f.name = some l) : f.TakesSetting l :=
      hconforms.takes hl
    refine ⟨⟨⟨⟨⟨⟨⟨⟨htakes .description, htakes .configurationTag⟩, htakes .copyright⟩, htakes .trademark⟩,
      htakes .culture⟩, htakes .interopVisible⟩, htakes .complianceChecked⟩, htakes .internalAccessGrant⟩, ?_⟩
    intro e he
    obtain ⟨f, hf, -⟩ := hconforms e he
    rw [hf]
    exact List.mem_map_of_mem (Field.mem_all f)

end Source

namespace BuildSettings

variable {raw : Entries}

/-- **A section for the build is accepted exactly where it conforms.** -/
theorem exists_sound_iff (h : Toml.IsTable raw) : (∃ b, ofEntries raw = .sound b) ↔ Conforms raw := by
  have hflag : (setting excludeTestsName raw default.excludeTests Coercion.flag).issues = [] ↔
      ∀ l, raw.lookup excludeTestsName = some l → ∃ b, l.StandsFor b := by
    rw [issues_setting_eq_nil_iff]
    exact forall₂_congr fun l hl => exists_congr fun b => Coercion.flag_eq_ok_iff (h.isValue_of_lookup hl)
  have htext : (setting outputDirectoryName raw default.outputDirectory Coercion.text).issues = [] ↔
      ∀ l, raw.lookup outputDirectoryName = some l → ∃ s, l = .text s := by
    rw [issues_setting_eq_nil_iff]
    exact forall₂_congr fun l hl => Coercion.exists_text_iff (h.isValue_of_lookup hl)
  rw [← Checked.issues_eq_nil_iff, ofEntries, Checked.issues_alsoFlawed, List.append_eq_nil_iff,
    strangeKeys_eq_nil_iff]
  simp only [Checked.issues_ap, Checked.issues_map, List.append_eq_nil_iff, hflag, htext]
  constructor
  · rintro ⟨⟨htests, houtput⟩, hkeys⟩ ⟨key, l⟩ he
    have hlookup := h.lookup_eq_some_iff.mpr he
    have hkey := hkeys _ he
    simp only [List.mem_cons, List.not_mem_nil, or_false] at hkey
    rcases hkey with rfl | rfl
    · exact Or.inl ⟨rfl, htests l hlookup⟩
    · exact Or.inr ⟨rfl, houtput l hlookup⟩
  · intro hconforms
    have hdistinct : excludeTestsName ≠ outputDirectoryName := by decide
    refine ⟨⟨?_, ?_⟩, ?_⟩
    · intro l hl
      rcases hconforms _ (Table.mem_of_lookup hl) with ⟨-, hb⟩ | ⟨hkey, -⟩
      · exact hb
      · exact absurd hkey hdistinct
    · intro l hl
      rcases hconforms _ (Table.mem_of_lookup hl) with ⟨hkey, -⟩ | ⟨-, hs⟩
      · exact absurd hkey.symm hdistinct
      · exact hs
    · intro e he
      rcases hconforms e he with ⟨hkey, -⟩ | ⟨hkey, -⟩ <;> simp [hkey]

end BuildSettings

namespace Config

variable {entries : Entries}

/-- A section is the default where there is none, and else what its table is read as. -/
theorem sectionOf_eq_sound_iff {α : Type} {name record : String} {default a : α}
    {ofEntries : Entries → Checked α} :
    sectionOf name record entries default ofEntries = .sound a ↔
      (entries.lookup name = none ∧ default = a) ∨
        ∃ raw, entries.lookup name = some (.table raw) ∧ ofEntries raw = .sound a := by
  unfold sectionOf
  cases entries.lookup name with
  | none => simp
  | some l =>
    cases l with
    | table raw => simp [Checked.inside_eq_sound_iff]
    | _ => simp

theorem issues_sectionOf_eq_nil_iff {α : Type} {name record : String} {default : α}
    {ofEntries : Entries → Checked α} :
    (sectionOf name record entries default ofEntries).issues = [] ↔
      ∀ l, entries.lookup name = some l → ∃ raw, l = .table raw ∧ ∃ a, ofEntries raw = .sound a := by
  simp only [Checked.issues_eq_nil_iff, sectionOf_eq_sound_iff]
  cases entries.lookup name with
  | none => simp
  | some l =>
    simp only [reduceCtorEq, false_and, false_or, Option.some.injEq, forall_eq']
    rw [exists_comm]
    simp only [exists_and_left]

/-- **A document is accepted exactly where it conforms.** -/
theorem exists_sound_iff (h : Toml.IsTable entries) : (∃ c, ofEntries entries = .sound c) ↔ Conforms entries := by
  have hsource : (sectionOf sourceName "DescriptorSource" entries none
      (fun e => some <$> Source.ofEntries e)).issues = [] ↔
        ∀ l, entries.lookup sourceName = some l → ∃ raw, l = .table raw ∧ Source.Conforms raw := by
    rw [issues_sectionOf_eq_nil_iff]
    refine forall₂_congr fun l hl => exists_congr fun raw => and_congr_right ?_
    rintro rfl
    rw [← Source.exists_sound_iff (Toml.isTable_of_isValue (h.isValue_of_lookup hl))]
    simp [Checked.map_eq_sound_iff]
  have hbuild : (sectionOf buildName "BuildConfig" entries BuildSettings.default
      BuildSettings.ofEntries).issues = [] ↔
        ∀ l, entries.lookup buildName = some l → ∃ raw, l = .table raw ∧ BuildSettings.Conforms raw := by
    rw [issues_sectionOf_eq_nil_iff]
    refine forall₂_congr fun l hl => exists_congr fun raw => and_congr_right ?_
    rintro rfl
    exact BuildSettings.exists_sound_iff (Toml.isTable_of_isValue (h.isValue_of_lookup hl))
  rw [← Checked.issues_eq_nil_iff, ofEntries, Checked.issues_alsoFlawed, List.append_eq_nil_iff,
    strangeKeys_eq_nil_iff]
  simp only [Checked.issues_ap, Checked.issues_map, List.append_eq_nil_iff, hsource, hbuild]
  constructor
  · rintro ⟨⟨hdescriptor, hsettings⟩, hkeys⟩ ⟨key, l⟩ he
    have hlookup := h.lookup_eq_some_iff.mpr he
    have hkey := hkeys _ he
    simp only [List.mem_cons, List.not_mem_nil, or_false] at hkey
    rcases hkey with rfl | rfl
    · exact Or.inl ⟨rfl, hdescriptor l hlookup⟩
    · exact Or.inr ⟨rfl, hsettings l hlookup⟩
  · intro hconforms
    have hdistinct : sourceName ≠ buildName := by decide
    refine ⟨⟨?_, ?_⟩, ?_⟩
    · intro l hl
      rcases hconforms _ (Table.mem_of_lookup hl) with ⟨-, hraw⟩ | ⟨hkey, -⟩
      · exact hraw
      · exact absurd hkey hdistinct
    · intro l hl
      rcases hconforms _ (Table.mem_of_lookup hl) with ⟨hkey, -⟩ | ⟨-, hraw⟩
      · exact absurd hkey.symm hdistinct
      · exact hraw
    · intro e he
      rcases hconforms e he with ⟨hkey, -⟩ | ⟨hkey, -⟩ <;> simp [hkey]

end Config

/-! ## What is kept -/

/-- What is declared of a field for which a literal is given or none: of the identity just what is given, and
otherwise the text or the flag, with the empty text and false where none is given. The grant is not declared as a
field. -/
def Field.DeclaredAs : Field → Option Literal → Literal → Prop
  | .title, given, v | .organization, given, v | .productName, given, v | .uniqueId, given, v
  | .assemblyVersion, given, v | .fileVersion, given, v => given = some v
  | .description, given, v | .configurationTag, given, v | .copyright, given, v | .trademark, given, v
  | .culture, given, v => v = given.getD (.text "")
  | .interopVisible, given, v | .complianceChecked, given, v =>
    ∃ b, v = .flag b ∧ (given.getD (.flag false)).StandsFor b
  | .internalAccessGrant, _, _ => False

namespace Source

variable {raw : Entries} {s : Source} {f : Field} {given : Option Literal} {l v : Literal}

/-- What is kept of a field is declared, if anything is. -/
theorem declaredAs_iff (hgiven : ∀ v, given = some v → Toml.IsValue v) (h : kept f given = .ok l) :
    f.DeclaredAs given v ↔ f ≠ .internalAccessGrant ∧ v = l ∧ l.isAbsent = false := by
  have identity (h : (.ok (given.getD .absent) : Except Problem Literal) = .ok l) :
      given = some v ↔ v = l ∧ l.isAbsent = false := by
    obtain rfl := Except.ok.inj h
    cases given with
    | none => simp [Literal.isAbsent]
    | some w =>
      have hw : w.isAbsent = false := by cases hgiven w rfl <;> rfl
      simp [hw, eq_comm]
  have written (h : ((given.map Coercion.text).getD (.ok "")).map Literal.text = .ok l) :
      v = given.getD (.text "") ↔ v = l ∧ l.isAbsent = false := by
    obtain ⟨t, ht, rfl⟩ := Toml.map_eq_ok_iff.mp h
    have hl : given.getD (.text "") = .text t := by
      cases given with
      | none => exact congrArg Literal.text (Except.ok.inj ht)
      | some w =>
        obtain ⟨t', rfl⟩ := (Coercion.exists_text_iff (hgiven w rfl)).mp ⟨t, ht⟩
        exact congrArg Literal.text (Except.ok.inj ht)
    simp [hl, Literal.isAbsent]
  have flagged (h : ((given.map Coercion.flag).getD (.ok false)).map Literal.flag = .ok l) :
      (∃ b, v = .flag b ∧ (given.getD (.flag false)).StandsFor b) ↔ v = l ∧ l.isAbsent = false := by
    obtain ⟨b, hb, rfl⟩ := Toml.map_eq_ok_iff.mp h
    have hvalue : Toml.IsValue (given.getD (.flag false)) := by
      cases given with
      | none => exact .flag false
      | some w => exact hgiven w rfl
    have hread : Coercion.flag (given.getD (.flag false)) = .ok b := by
      cases given with
      | none => exact hb
      | some w => exact hb
    simp [← Coercion.flag_eq_ok_iff hvalue, hread, Literal.isAbsent]
  cases f with
  | title | organization | productName | uniqueId | assemblyVersion | fileVersion =>
    simpa [Field.DeclaredAs] using identity h
  | description | configurationTag | copyright | trademark | culture =>
    simpa [Field.DeclaredAs] using written h
  | interopVisible | complianceChecked => simpa [Field.DeclaredAs] using flagged h
  | internalAccessGrant => simp [Field.DeclaredAs]

/-- A source holds all that its section gives. -/
structure Holds (s : Source) (raw : Entries) : Prop where
  /-- The fields are declared in their order, none of them twice. -/
  ordered : (s.declaredFields.map Prod.fst).Sublist (Field.all.map Field.name)
  declared : ∀ e, e ∈ s.declaredFields ↔ ∃ f : Field, e.1 = f.name ∧ f.DeclaredAs (raw.lookup f.name) e.2
  grant : s.get .internalAccessGrant = (raw.lookup Field.internalAccessGrant.name).getD .absent

/-- **A source that is accepted holds all that its section gives.** -/
theorem holds_of_ofEntries (hraw : Toml.IsTable raw) (h : ofEntries raw = .sound s) : s.Holds raw := by
  obtain ⟨hkept, -⟩ := kept_of_ofEntries h
  have hvalue (f : Field) (v : Literal) (hv : raw.lookup f.name = some v) : Toml.IsValue v :=
    hraw.isValue_of_lookup hv
  refine ⟨?_, ?_, kept_grant (hvalue _) (hkept _)⟩
  · unfold declaredFields
    refine (List.filter_sublist.map Prod.fst).trans ?_
    rw [List.map_map]
    exact List.filter_sublist.map _
  · rintro ⟨key, v⟩
    rw [mem_declaredFields_iff]
    constructor
    · rintro ⟨f, hf, heq, hgiven⟩
      obtain ⟨rfl, rfl⟩ := Prod.mk.inj heq
      exact ⟨f, rfl, (declaredAs_iff (hvalue f) (hkept f)).mpr ⟨hf, rfl, hgiven⟩⟩
    · rintro ⟨f, hkey, hdeclared⟩
      obtain ⟨hf, hv, hgiven⟩ := (declaredAs_iff (hvalue f) (hkept f)).mp hdeclared
      exact ⟨f, hf, Prod.ext hkey hv, hgiven⟩

end Source

/-- The settings of a build hold what their section gives, and the defaults for what it does not. -/
structure BuildSettings.Holds (b : BuildSettings) (raw : Entries) : Prop where
  excludeTests : ((raw.lookup excludeTestsName).getD (.flag false)).StandsFor b.excludeTests
  outputDirectory : (raw.lookup outputDirectoryName).getD (.text ".descriptor") = .text b.outputDirectory

theorem BuildSettings.holds_of_ofEntries {raw : Entries} {b : BuildSettings} (hraw : Toml.IsTable raw)
    (h : ofEntries raw = .sound b) : b.Holds raw := by
  rw [ofEntries, Checked.alsoFlawed_eq_sound_iff, Checked.ap_eq_sound_iff] at h
  obtain ⟨⟨_, output, hmk, houtput, rfl⟩, -⟩ := h
  obtain ⟨tests, htests, rfl⟩ := Checked.map_eq_sound_iff.mp hmk
  rw [setting_eq_sound_iff] at htests houtput
  constructor
  · cases hlookup : raw.lookup excludeTestsName with
    | none =>
      rw [hlookup] at htests
      exact (Coercion.flag_eq_ok_iff (.flag false)).mp htests
    | some l =>
      rw [hlookup] at htests
      exact (Coercion.flag_eq_ok_iff (hraw.isValue_of_lookup hlookup)).mp htests
  · cases hlookup : raw.lookup outputDirectoryName with
    | none =>
      rw [hlookup] at houtput
      exact congrArg Literal.text (Except.ok.inj houtput)
    | some l =>
      rw [hlookup] at houtput
      obtain ⟨s, rfl⟩ := (Coercion.exists_text_iff (hraw.isValue_of_lookup hlookup)).mp ⟨output, houtput⟩
      exact congrArg Literal.text (Except.ok.inj houtput)

namespace Config

variable {entries : Entries} {config : Config}

/-- A configuration holds all that its document gives: a source just where there is a section for it, and the
settings of the build. -/
structure Holds (config : Config) (entries : Entries) : Prop where
  source : (config.source = none ∧ entries.lookup sourceName = none) ∨
    ∃ s raw, config.source = some s ∧ entries.lookup sourceName = some (.table raw) ∧ s.Holds raw
  build : ∃ raw, (entries.lookup buildName).getD (.table []) = .table raw ∧ config.build.Holds raw

/-- **A configuration that is accepted holds all that its document gives.** -/
theorem holds_of_ofEntries (h : Toml.IsTable entries) (hconfig : ofEntries entries = .sound config) :
    config.Holds entries := by
  obtain ⟨hsource, hbuild⟩ := ofEntries_eq_sound hconfig
  constructor
  · rcases sectionOf_eq_sound_iff.mp hsource with ⟨hnone, hdefault⟩ | ⟨raw, hraw, hread⟩
    · exact Or.inl ⟨hdefault.symm, hnone⟩
    · obtain ⟨s, hs, hsome⟩ := Checked.map_eq_sound_iff.mp hread
      have htable := Toml.isTable_of_isValue (h.isValue_of_lookup hraw)
      exact Or.inr ⟨s, raw, hsome.symm, hraw, Source.holds_of_ofEntries htable hs⟩
  · rcases sectionOf_eq_sound_iff.mp hbuild with ⟨hnone, hdefault⟩ | ⟨raw, hraw, hread⟩
    · refine ⟨[], ?_, ?_⟩
      · rw [hnone]
        rfl
      · rw [← hdefault]
        exact ⟨Or.inl rfl, rfl⟩
    · refine ⟨raw, ?_, ?_⟩
      · rw [hraw]
        rfl
      · exact BuildSettings.holds_of_ofEntries (Toml.isTable_of_isValue (h.isValue_of_lookup hraw)) hread

/-- A section with a field under a block name that is not its name does not conform. -/
theorem not_conforms_of_blockName {raw : Entries} {f : Field} {l : Literal}
    (hraw : entries.lookup sourceName = some (.table raw)) (hmem : (f.blockName, l) ∈ raw)
    (hother : f.blockName ≠ f.name) : ¬ Conforms entries := by
  intro h
  rcases h _ (Table.mem_of_lookup hraw) with ⟨-, raw', hsame, hconforms⟩ | ⟨hbuild, -⟩
  · obtain rfl := Literal.table.inj hsame
    obtain ⟨g, hg, -⟩ := hconforms _ hmem
    have hspelled := Field.ofSpelling?_name g
    rw [← hg, Field.ofSpelling?_eq_some_iff.mpr (Or.inr rfl)] at hspelled
    obtain rfl := Option.some.inj hspelled
    exact hother hg
  · have hdistinct : sourceName ≠ buildName := by decide
    exact hdistinct hbuild

end Config

namespace Machine

variable {m : Machine} {root : Pathname} {data : ByteArray} {entries : Entries}

/-- **The configuration of an artifact is loaded exactly where its document conforms to the schema, and is refused
as invalid otherwise. Fields are known by their names and not by their block names. What is loaded holds all that
the document gives.** -/
theorem loadConfig_accepts_schema (hfile : m.node (Config.fileUnder root) = .ok (.file data))
    (hread : Toml.ofBytes data = .ok entries) :
    ((∃ config, m.loadConfig root = .ok config) ↔ Config.Conforms entries) ∧
      (¬ Config.Conforms entries → ∃ first rest,
        m.loadConfig root = .error (.config (.invalid (Config.fileUnder root) first rest))) ∧
      (∀ raw f l, entries.lookup Config.sourceName = some (.table raw) → (Field.blockName f, l) ∈ raw →
        f.blockName ≠ f.name → ¬ Config.Conforms entries) ∧
      ∀ config, m.loadConfig root = .ok config → config.Holds entries := by
  have htable := Toml.isTable_of_ofBytes hread
  have hsound (config : Config) (hconfig : Config.ofEntries entries = .sound config) :
      m.loadConfig root = .ok config := by
    rw [loadConfig_of_node hfile]
    simp only [Config.ofBytes, hread, hconfig]
  have hflawed (first : Issue) (rest : List Issue) (hconfig : Config.ofEntries entries = .flawed first rest) :
      m.loadConfig root = .error (.config (.invalid (Config.fileUnder root) first rest)) := by
    rw [loadConfig_of_node hfile]
    simp only [Config.ofBytes, hread, hconfig]
  have hfound (config : Config) (hload : m.loadConfig root = .ok config) :
      Config.ofEntries entries = .sound config := by
    cases hconfig : Config.ofEntries entries with
    | sound found => rw [Except.ok.inj ((hsound found hconfig).symm.trans hload)]
    | flawed first rest => cases (hflawed first rest hconfig).symm.trans hload
  rw [← Config.exists_sound_iff htable]
  refine ⟨⟨?_, ?_⟩, ?_, ?_, ?_⟩
  · rintro ⟨config, hload⟩
    exact ⟨config, hfound config hload⟩
  · rintro ⟨config, hconfig⟩
    exact ⟨config, hsound config hconfig⟩
  · intro hrefused
    cases hconfig : Config.ofEntries entries with
    | sound config => exact absurd ⟨config, hconfig⟩ hrefused
    | flawed first rest => exact ⟨first, rest, hflawed first rest hconfig⟩
  · intro raw f l hraw hmem hother
    rw [Config.exists_sound_iff htable]
    exact Config.not_conforms_of_blockName hraw hmem hother
  · intro config hload
    exact Config.holds_of_ofEntries htable (hfound config hload)

/-- An artifact whose configuration names a field by its block name. -/
def aliasedSample : Machine :=
  sample [(["art", "descriptor.toml"], .file "[descriptor]\nproductName='W'\n".toUTF8)]

theorem textsIn?_aliasedSample :
    Config.textsIn? "[descriptor]\nproductName='W'\n" = some [("productName", "W")] := by
  decide +kernel

/-- The configuration with a flag that is written as a word is loaded; its source has the title, that flag as false
and the default of a text, and goes to the default directory. The configuration with a block name is refused. -/
theorem loadConfig_of_samples :
    (∃ config s, (grantingSample "two names").loadConfig ⟨true, ["art"]⟩ = .ok config ∧
      config.source = some s ∧ ("title", .text "W") ∈ s.declaredFields ∧
      ("interop_visible", .flag false) ∈ s.declaredFields ∧ ("culture", .text "") ∈ s.declaredFields ∧
      config.build.outputDirectory = ".descriptor") ∧
    ∃ first rest, aliasedSample.loadConfig ⟨true, ["art"]⟩ =
      .error (.config (.invalid (Config.fileUnder ⟨true, ["art"]⟩) first rest)) := by
  constructor
  · have htexts := Stamping.textsIn?_grantingText
    have haccepted : (Config.ofEntries [(Config.sourceName,
        .table (Entries.ofTexts (Stamping.grantingTexts "two names")))]).surfaced.toOption.isSome = true := by
      decide +kernel
    obtain ⟨config, hconfig⟩ := Option.isSome_iff_exists.mp haccepted
    have hload := loadConfig_grantingSample htexts (Checked.eq_sound_iff_toOption.mpr hconfig)
    obtain ⟨-, -, -, hholds⟩ :=
      loadConfig_accepts_schema (node_grantingSample "two names") (Config.ofBytes_of_textsIn? htexts)
    obtain ⟨⟨-, hnone⟩ | ⟨s, raw, hs, hraw, hsource⟩, settings, hsettings, hbuild⟩ := hholds config hload
    · cases hnone
    · obtain rfl := Literal.table.inj (Option.some.inj hraw)
      obtain rfl := Literal.table.inj hsettings
      have hoff : (Literal.text "off").StandsFor false := Or.inr ⟨"off", rfl, by decide +kernel⟩
      refine ⟨config, s, hload, hs, ?_, ?_, ?_, (Literal.text.inj hbuild.outputDirectory).symm⟩
      · exact (hsource.declared _).mpr ⟨.title, rfl, rfl⟩
      · exact (hsource.declared _).mpr ⟨.interopVisible, rfl, false, rfl, hoff⟩
      · exact (hsource.declared _).mpr ⟨.culture, rfl, rfl⟩
  · have hfile : aliasedSample.node (Config.fileUnder ⟨true, ["art"]⟩) =
        .ok (.file "[descriptor]\nproductName='W'\n".toUTF8) := rfl
    obtain ⟨-, hrefused, haliased, -⟩ :=
      loadConfig_accepts_schema hfile (Config.ofBytes_of_textsIn? textsIn?_aliasedSample)
    exact hrefused (haliased _ .productName _ rfl List.mem_cons_self (by decide))

end Machine

end ArtifactIdentity
