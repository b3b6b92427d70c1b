import ArtifactIdentity.Proofs.Config.Settings
import ArtifactIdentity.Proofs.Descriptor.Declaring
import ArtifactIdentity.Proofs.Stamping
import ArtifactIdentity.Proofs.Toml.Values

/-!
# Declaring through a configuration

A configuration reads texts and flags, keeps the literals of the identity as they are written, and leaves out
what is absent; what it keeps is then declared. A text or a flag that was read is read again as itself, so
the descriptor is that of the literals in the file, and so is the fault where there is one. Only the literals
of the identity and the grant can be at fault by then.
-/

namespace ArtifactIdentity

open Descriptor

/-! ## Keys that are the names of fields -/

/-- The keys of a table are the names of fields, no two the same. -/
structure Entries.Named (entries : Entries) : Prop where
  names : ∀ e ∈ entries, ∃ f : Field, e.1 = f.name
  distinct : (entries.map Prod.fst).Nodup

namespace Entries.Named

variable {entries : Entries}

theorem spelled (h : Named entries) : Spelled entries := by
  constructor
  · intro e he
    obtain ⟨f, hf⟩ := h.names e he
    rw [hf, Field.ofSpelling?_name]
    rfl
  · have hkeys : (entries.map fun e => Field.ofSpelling? e.1) =
        (entries.map Prod.fst).map Field.ofSpelling? := by
      rw [List.map_map]
      rfl
    rw [hkeys]
    apply List.Nodup.map_on ?_ h.distinct
    intro key hkey key' hkey' hsame
    obtain ⟨e, he, rfl⟩ := List.mem_map.mp hkey
    obtain ⟨e', he', rfl⟩ := List.mem_map.mp hkey'
    obtain ⟨f, hf⟩ := h.names e he
    obtain ⟨f', hf'⟩ := h.names e' he'
    rw [hf, hf', Field.ofSpelling?_name, Field.ofSpelling?_name] at hsame
    rw [hf, hf', Option.some.inj hsame]

/-- What such a table gives for a field stands under its name. -/
theorem literal?_eq (h : Named entries) (f : Field) : f.literal? entries = entries.lookup f.name := by
  unfold Field.literal? Field.given?
  cases hblock : entries.lookup f.blockName with
  | none => cases entries.lookup f.name <;> rfl
  | some l =>
    obtain ⟨f', hf'⟩ := h.names _ (Table.mem_of_lookup hblock)
    have hspelled : Field.ofSpelling? f.blockName = some f := Field.ofSpelling?_eq_some_iff.mpr (Or.inr rfl)
    have hname : f.blockName = f'.name := hf'
    rw [hname, Field.ofSpelling?_name] at hspelled
    obtain rfl := Option.some.inj hspelled
    rw [← hname, hblock]
    rfl

end Entries.Named

/-! ## Literals that are kept -/

namespace Source

variable {f : Field} {given : Option Literal} {l : Literal} {s : Source} {raw : Entries}

/-- What is declared of a literal that is kept: nothing where it is absent. -/
def declared (l : Literal) : Option Literal :=
  if l.isAbsent then none else some l

/-- A literal that was accepted says the same as what was made of it, and as the default where nothing was
given. -/
theorem saySame_of_accepted {α : Type} {accept : Literal → Except Problem α} {default a : α}
    {fact : Descriptor → α} (hrequired : f.isRequired = false)
    (hproblem : ∀ l, f.problem? l = Coercion.problem? (accept l))
    (hstates : ∀ d : Descriptor, ∀ l, d.States f l ↔ accept l = .ok (fact d))
    (homits : ∀ d : Descriptor, d.Omits f ↔ fact d = default)
    (hgiven : (given.map accept).getD (.ok default) = .ok a) (hl : accept l = .ok a) :
    f.SaySame (some l) given := by
  constructor
  · have hkept : f.fault? (some l) = none := by simp [Field.fault?, hproblem, hl, Coercion.problem?]
    rw [hkept]
    cases given with
    | none => simp [Field.fault?, hrequired]
    | some v =>
      have hv : accept v = .ok a := hgiven
      simp [Field.fault?, hproblem, hv, Coercion.problem?]
  · intro d
    have hstated : d.Says f (some l) ↔ a = fact d := by
      rw [Says, hstates, hl, Except.ok.injEq]
    rw [hstated]
    cases given with
    | none =>
      obtain rfl : default = a := Except.ok.inj hgiven
      rw [Says, homits, eq_comm]
    | some v =>
      have hv : accept v = .ok a := hgiven
      rw [Says, hstates, hv, Except.ok.injEq]

/-- **What a source keeps of a field says the same of it as what was given.** -/
theorem saySame_kept (hf : f ≠ .internalAccessGrant) (hgiven : ∀ v, given = some v → v.isAbsent = false)
    (h : kept f given = .ok l) : f.SaySame (declared l) given := by
  have identity (h : (.ok (given.getD .absent) : Except Problem Literal) = .ok l) :
      f.SaySame (declared l) given := by
    obtain rfl := Except.ok.inj h
    cases given with
    | none => exact .refl f none
    | some v =>
      rw [Option.getD_some, declared, hgiven v rfl]
      exact .refl f _
  cases f with
  | title | organization | productName | uniqueId | assemblyVersion | fileVersion => exact identity h
  | description | configurationTag | copyright | trademark | culture =>
    obtain ⟨s, hs, rfl⟩ := Toml.map_eq_ok_iff.mp h
    exact saySame_of_accepted rfl (fun _ => rfl) (fun _ _ => Iff.rfl) (fun _ => Iff.rfl) hs rfl
  | interopVisible | complianceChecked =>
    obtain ⟨b, hb, rfl⟩ := Toml.map_eq_ok_iff.mp h
    exact saySame_of_accepted rfl (fun _ => rfl) (fun _ _ => Iff.rfl) (fun _ => Iff.rfl) hb rfl
  | internalAccessGrant => exact absurd rfl hf

/-- A document can name the grant by a text only, and then the text is kept. -/
theorem kept_grant (hgiven : ∀ v, given = some v → Toml.IsValue v)
    (h : kept .internalAccessGrant given = .ok l) : l = given.getD .absent := by
  obtain ⟨name, hname, rfl⟩ := Toml.map_eq_ok_iff.mp h
  cases given with
  | none =>
    obtain rfl := Except.ok.inj hname
    rfl
  | some v =>
    have hname : grant v = .ok name := hname
    cases hgiven v rfl with
    | text s =>
      obtain rfl := Except.ok.inj hname
      rfl
    | _ => cases hname

theorem mem_declaredFields_iff {e : String × Literal} :
    e ∈ s.declaredFields ↔
      ∃ f : Field, f ≠ .internalAccessGrant ∧ e = (f.name, s.get f) ∧ (s.get f).isAbsent = false := by
  unfold declaredFields
  rw [List.mem_filter, List.mem_map]
  constructor
  · rintro ⟨⟨f, hf, rfl⟩, hgiven⟩
    exact ⟨f, of_decide_eq_true (List.mem_filter.mp hf).2, rfl, by simpa using hgiven⟩
  · rintro ⟨f, hf, rfl, hgiven⟩
    exact ⟨⟨f, List.mem_filter.mpr ⟨Field.mem_all f, decide_eq_true hf⟩, rfl⟩, by simpa using hgiven⟩

theorem named_declaredFields (s : Source) : Entries.Named s.declaredFields := by
  constructor
  · intro e he
    obtain ⟨f, -, rfl, -⟩ := mem_declaredFields_iff.mp he
    exact ⟨f, rfl⟩
  · have hnames : (Field.all.map Field.name).Nodup := by decide
    refine List.Nodup.sublist ?_ hnames
    unfold declaredFields
    refine (List.filter_sublist.map Prod.fst).trans ?_
    rw [List.map_map]
    exact List.filter_sublist.map _

theorem ne_grant_of_mem_declaredFields {e : String × Literal} (he : e ∈ s.declaredFields) :
    Field.ofSpelling? e.1 ≠ some .internalAccessGrant := by
  obtain ⟨f, hf, rfl, -⟩ := mem_declaredFields_iff.mp he
  rw [Field.ofSpelling?_name]
  intro hgrant
  exact hf (Option.some.inj hgrant)

theorem literal?_declaredFields (s : Source) (hf : f ≠ .internalAccessGrant) :
    f.literal? s.declaredFields = declared (s.get f) := by
  apply Option.ext
  intro l
  rw [(named_declaredFields s).spelled.literal?_eq_some_iff, declared]
  constructor
  · rintro ⟨key, hkey, hspelled⟩
    obtain ⟨f', -, heq, hgiven⟩ := mem_declaredFields_iff.mp hkey
    obtain ⟨rfl, rfl⟩ := Prod.mk.inj heq
    rw [Field.ofSpelling?_name] at hspelled
    obtain rfl := Option.some.inj hspelled
    simp [hgiven]
  · intro h
    split at h
    · cases h
    · rename_i hgiven
      obtain rfl := Option.some.inj h
      exact ⟨f.name, mem_declaredFields_iff.mpr ⟨f, hf, rfl, by simpa using hgiven⟩,
        Field.ofSpelling?_name f⟩

/-- The keys of a section that a source is read from are the names of fields. -/
theorem named_of_ofEntries (hraw : Toml.IsTable raw) (h : ofEntries raw = .sound s) : Entries.Named raw :=
  ⟨(kept_of_ofEntries h).2, hraw.distinct⟩

end Source

/-! ## Declaring the literals of a section -/

namespace Declaration

variable {excludeTests : Bool} {raw : Entries} {source : Source}

/-- The keywords of a declaration from a section and a flag. -/
def direct (excludeTests : Bool) (raw : Entries) : Entries :=
  (excludeTestsKeyword, .flag excludeTests) :: raw

theorem declare_direct (excludeTests : Bool) (raw : Entries) :
    declare (direct excludeTests raw) = onBuilder excludeTests (grantOf raw) (fieldsOf raw) := by
  have hflag : excludesTests (direct excludeTests raw) = excludeTests := by
    simp [excludesTests, direct, Literal.truthy]
  have hgrant : grantOf (direct excludeTests raw) = grantOf raw := by
    unfold grantOf direct
    rw [Table.lookup_cons_of_ne (by decide), Table.lookup_cons_of_ne (by decide)]
  have hfields : fieldsOf (direct excludeTests raw) = fieldsOf raw := by
    unfold fieldsOf direct
    rw [List.filter_cons]
    rfl
  rw [declare, hflag, hgrant, hfields]

/-- A source is declared with the grant and the fields of the section that it was read from. -/
theorem result_declareSource (hraw : Toml.IsTable raw) (hsource : Source.ofEntries raw = .sound source) :
    (Stamping.declareSource source excludeTests).result =
      ((held excludeTests (grantOf raw)).bind fun name =>
        (ofEntries (withHeld source.declaredFields name)).surfaced).mapError .fault := by
  have hgrant : source.get .internalAccessGrant = grantOf raw := by
    rw [grantOf_eq, (Source.named_of_ofEntries hraw hsource).literal?_eq]
    refine Source.kept_grant ?_ ((Source.kept_of_ofEntries hsource).1 _)
    intro v hv
    exact hraw.isValue_of_lookup hv
  rw [← hgrant]
  exact result_onBuilder (Source.named_declaredFields source).spelled
    fun _ => Source.ne_grant_of_mem_declaredFields

/-- **A source is declared as the literals that it was read from.** -/
theorem declareSource_eq_direct (hraw : Toml.IsTable raw) (hsource : Source.ofEntries raw = .sound source) :
    (Stamping.declareSource source excludeTests).result = (declare (direct excludeTests raw)).result := by
  have hnamed := Source.named_of_ofEntries hraw hsource
  have hfree : ∀ e ∈ fieldsOf raw, Field.ofSpelling? e.1 ≠ some .internalAccessGrant := by
    intro e he
    exact ((mem_fieldsOf_iff hnamed.spelled).mp he).2
  rw [result_declareSource hraw hsource, declare_direct,
    result_onBuilder (spelled_fieldsOf hnamed.spelled) hfree]
  congr 2
  funext name
  have hkept := spelled_withHeld name (Source.named_declaredFields source).spelled
    fun _ => Source.ne_grant_of_mem_declaredFields
  have hfields := spelled_withHeld name (spelled_fieldsOf hnamed.spelled) hfree
  apply surfaced_congr hkept.extraIssues_eq_nil hfields.extraIssues_eq_nil
  intro f
  by_cases hf : f = .internalAccessGrant
  · subst hf
    rw [literal?_withHeld_grant hkept, literal?_withHeld_grant hfields]
    exact .refl _ _
  · rw [literal?_withHeld hkept hf, Source.literal?_declaredFields source hf, literal?_withHeld hfields hf,
      literal?_fieldsOf hnamed.spelled hf, hnamed.literal?_eq]
    apply Source.saySame_kept hf
    · intro v hv
      cases hraw.isValue_of_lookup hv <;> rfl
    · exact (Source.kept_of_ofEntries hsource).1 f

/-- The fields whose literals a configuration does not check. -/
def uncheckedFields : List Field :=
  [.title, .organization, .productName, .uniqueId, .assemblyVersion, .fileVersion, .internalAccessGrant]

/-- A text or a flag that a source keeps is no fault. -/
theorem mem_uncheckedFields_of_fault? {f : Field} {fault : Fault} (hf : f ≠ .internalAccessGrant)
    (h : f.fault? (Source.declared (source.get f)) = some fault) : f ∈ uncheckedFields := by
  cases f with
  | title | organization | productName | uniqueId | assemblyVersion | fileVersion => decide
  | description | configurationTag | copyright | trademark | culture | interopVisible | complianceChecked =>
    cases h
  | internalAccessGrant => exact absurd rfl hf

/-- **A malformed identity of a source is about the grant or a field of the identity.** -/
theorem exists_uncheckedField {x : Malformed} (hraw : Toml.IsTable raw)
    (hsource : Source.ofEntries raw = .sound source)
    (h : (Stamping.declareSource source excludeTests).result = .error (.fault (.malformed x))) :
    ∃ f ∈ uncheckedFields, x.field = Field.name f := by
  rw [result_declareSource hraw hsource] at h
  cases hheld : held excludeTests (grantOf raw) with
  | error fault =>
    rw [hheld] at h
    obtain rfl : fault = .malformed x := BuildError.fault.inj (Except.error.inj h)
    refine ⟨.internalAccessGrant, by decide, ?_⟩
    unfold held at hheld
    split at hheld
    · cases hheld
    · cases hname : Counterpart.ofLiteral Field.internalAccessGrant.name (grantOf raw) with
      | ok name =>
        rw [hname] at hheld
        cases hheld
      | error fault =>
        rw [hname] at hheld
        obtain rfl : fault = .malformed x := Except.error.inj hheld
        obtain ⟨reason, hreason⟩ := Counterpart.isAbout_of_ofLiteral hname x rfl
        exact Fault.field_of_eq hreason.symm
  | ok name =>
    have hkept := spelled_withHeld name (Source.named_declaredFields source).spelled
      fun _ => Source.ne_grant_of_mem_declaredFields
    rw [hheld, Except.bind] at h
    cases hread : (ofEntries (withHeld source.declaredFields name)).surfaced with
    | ok d =>
      rw [hread] at h
      cases h
    | error fault =>
      rw [hread] at h
      obtain rfl : fault = .malformed x := BuildError.fault.inj (Except.error.inj h)
      rw [surfaced_eq_error_iff hkept.extraIssues_eq_nil] at hread
      obtain ⟨f, -, hfault⟩ := List.exists_of_findSome?_eq_some hread
      obtain ⟨reason, hreason⟩ := Field.exists_reason_of_fault? hfault
      refine ⟨f, ?_, Fault.field_of_eq hreason.symm⟩
      by_cases hf : f = .internalAccessGrant
      · rw [hf]
        decide
      · rw [literal?_withHeld hkept hf, Source.literal?_declaredFields source hf] at hfault
        exact mem_uncheckedFields_of_fault? hf hfault

end Declaration

/-! ## Stamping -/

namespace Machine

variable {m : Machine} {root : Pathname} {output : Option Pathname} {excludeTests : Option Bool}
  {data : ByteArray} {entries raw : Entries} {config : Config}

/-- To find the output directory is no matter of declaring. -/
theorem outputDirectory_ne_build {e : BuildError} : m.outputDirectory root output config ≠ .error (.build e) := by
  have hresolved (p : Pathname) : m.resolved p ≠ .error (.build e) := by
    unfold resolved
    split <;> exact fun h => by cases h
  intro h
  unfold outputDirectory at h
  split at h
  · cases h
  · unfold resolveOutput at h
    split at h
    · cases h
    split at h
    · cases h
    cases htop : m.resolved root with
    | error cause =>
      rw [htop] at h
      obtain rfl : cause = .build e := Except.error.inj h
      exact hresolved root htop
    | ok top =>
      cases hplace : m.resolved (.ofLocation top ++ .ofString config.build.outputDirectory) with
      | error cause =>
        simp only [htop, hplace, bind, Except.bind, Except.map] at h
        obtain rfl := Except.error.inj h
        exact hresolved _ hplace
      | ok l =>
        simp only [htop, hplace, bind, Except.bind] at h
        split at h <;> cases h

/-- A stamping fails over what is declared exactly where the declaration does, and before any change. -/
theorem stamp_eq_build_error_iff {e : BuildError} {given : Option Config} :
    (m.stamp root output given excludeTests).result = .error (.build e) ↔
      (m.declareArtifact root given excludeTests).result = .error (.build e) := by
  constructor
  · intro h
    rcases m.stamp_cases root output given excludeTests with
      ⟨cause, hresult, -, hcause⟩ | ⟨_, _, -, -, ⟨_, hresult, -⟩ | ⟨hresult, -⟩⟩
    · obtain rfl : cause = .build e := Except.error.inj (hresult.symm.trans h)
      rcases hcause with hdeclared | ⟨_, -, hdirectory⟩
      · exact hdeclared
      · exact absurd hdirectory outputDirectory_ne_build
    · cases hresult.symm.trans h
    · cases hresult.symm.trans h
  · intro hdeclared
    simp only [stamp, hdeclared]

/-- A section of the file is read as the source of the configuration. -/
theorem exists_source_of_loadConfig (hfile : m.node (Config.fileUnder root) = .ok (.file data))
    (hread : Toml.ofBytes data = .ok entries) (hload : m.loadConfig root = .ok config)
    (hraw : entries.lookup Config.sourceName = some (.table raw)) :
    ∃ source, config.source = some source ∧ Source.ofEntries raw = .sound source ∧ Toml.IsTable raw := by
  obtain ⟨source, hsome, hsource⟩ := Config.exists_source (ofEntries_of_loadConfig hfile hread hload) hraw
  have hvalue := (Toml.isTable_of_ofBytes hread).isValue_of_lookup hraw
  exact ⟨source, hsome, hsource, Toml.isTable_of_isValue hvalue⟩

/-- What is declared for an artifact is the descriptor of the section in its file. -/
theorem declareArtifact_eq_direct (hfile : m.node (Config.fileUnder root) = .ok (.file data))
    (hread : Toml.ofBytes data = .ok entries) (hload : m.loadConfig root = .ok config)
    (hraw : entries.lookup Config.sourceName = some (.table raw)) :
    (m.declareArtifact root none excludeTests).result =
      ((declare (Declaration.direct (excludeTests.getD config.build.excludeTests) raw)).result.map
        fun d => ⟨config, excludeTests.getD config.build.excludeTests, d⟩).mapError .build := by
  obtain ⟨source, hsome, hsource, htable⟩ := exists_source_of_loadConfig hfile hread hload hraw
  simp only [declareArtifact, Option.map_none, Option.getD_none, hload, Config.requireSource, hsome]
  rw [← Declaration.declareSource_eq_direct htable hsource]
  cases (Stamping.declareSource source (excludeTests.getD config.build.excludeTests)).result <;> rfl

/-- **An artifact is stamped with the descriptor that the literals of its section declare by themselves, and
fails over them in the same way. A malformed identity is then about the grant or a field of the identity,
since a configuration has checked the other fields before.** -/
theorem stamp_declares_literals (output : Option Pathname) (excludeTests : Option Bool)
    (hfile : m.node (Config.fileUnder root) = .ok (.file data))
    (hread : Toml.ofBytes data = .ok entries) (hload : m.loadConfig root = .ok config)
    (hraw : entries.lookup Config.sourceName = some (.table raw)) :
    let flag := excludeTests.getD config.build.excludeTests
    let direct := declare (Declaration.direct flag raw)
    let change := m.stamp root output none excludeTests
    (∀ d, direct.result = .ok d ↔
        (m.declareArtifact root none excludeTests).result = .ok ⟨config, flag, d⟩) ∧
      (∀ stamped, change.result = .ok stamped → direct.result = .ok stamped.descriptor) ∧
      (∀ e, direct.result = .error e ↔ change.result = .error (.build e)) ∧
      ∀ x, direct.result = .error (.fault (.malformed x)) →
        x.field ∈ ["title", "organization", "product_name", "unique_id", "assembly_version",
          "file_version", "internal_access_grant"] := by
  intro flag direct change
  have hdeclared : (m.declareArtifact root none excludeTests).result =
      (direct.result.map fun d => ⟨config, flag, d⟩).mapError .build :=
    declareArtifact_eq_direct hfile hread hload hraw
  have hdescriptor (d : Descriptor) : direct.result = .ok d ↔
      (m.declareArtifact root none excludeTests).result = .ok ⟨config, flag, d⟩ := by
    rw [hdeclared]
    cases direct.result <;> simp [Except.map, Except.mapError]
  have herror (e : BuildError) : direct.result = .error e ↔ change.result = .error (.build e) := by
    rw [stamp_eq_build_error_iff, hdeclared]
    cases direct.result <;> simp [Except.map, Except.mapError]
  refine ⟨hdescriptor, ?_, herror, ?_⟩
  · intro stamped hstamped
    obtain ⟨declared, directory, hd, _, _, rfl⟩ := stamp_eq_ok hstamped
    rw [hdeclared] at hd
    cases hresult : direct.result with
    | error e =>
      rw [hresult] at hd
      cases hd
    | ok d =>
      rw [hresult] at hd
      obtain rfl := Except.ok.inj hd
      rfl
  · intro x hx
    obtain ⟨source, -, hsource, htable⟩ := exists_source_of_loadConfig hfile hread hload hraw
    have hx : (declare (Declaration.direct flag raw)).result = .error (.fault (.malformed x)) := hx
    rw [← Declaration.declareSource_eq_direct htable hsource] at hx
    obtain ⟨f, hf, hfield⟩ := Declaration.exists_uncheckedField htable hsource hx
    rw [hfield]
    exact List.mem_map_of_mem (f := Field.name) hf

end Machine

/-! ## A sample with a grant -/

/-- The texts of a configuration that has a section for the descriptor and nothing else. -/
def Config.textsIn? (text : String) : Option (List (String × String)) :=
  match Toml.ofChars text.toList with
  | .ok [(name, .table raw)] => if name = sourceName then raw.mapM Literal.keyedText? else none
  | _ => none

theorem Config.ofBytes_of_textsIn? {text : String} {texts : List (String × String)}
    (h : textsIn? text = some texts) :
    Toml.ofBytes text.toUTF8 = .ok [(sourceName, .table (Entries.ofTexts texts))] := by
  rw [Toml.ofBytes_toUTF8]
  unfold textsIn? at h
  split at h
  · rename_i name raw hread
    split at h
    · rename_i hname
      rw [hread, hname, Entries.eq_ofTexts h]
    · cases h
  · cases h

/-- The sample configuration with a flag that is written as a word, and a grant. -/
def Stamping.grantingText (name : String) : String :=
  sampleText ++ "interop_visible='off'\ninternal_access_grant='" ++ name ++ "'\n"

/-- What stands in its section. -/
def Stamping.grantingTexts (name : String) : List (String × String) :=
  [("title", "W"), ("organization", "A"), ("product_name", "W"),
    ("unique_id", "97db45a8-f922-456a-a819-7b3c6e5e03ba"), ("assembly_version", "1.2.3.4"),
    ("file_version", "1.2.3.4"), ("interop_visible", "off"), ("internal_access_grant", name)]

/-- An artifact with that configuration. -/
def Machine.grantingSample (name : String) : Machine :=
  sample [(["art", "descriptor.toml"], .file (Stamping.grantingText name).toUTF8)]

theorem Machine.node_grantingSample (name : String) :
    (grantingSample name).node (Config.fileUnder ⟨true, ["art"]⟩) =
      .ok (.file (Stamping.grantingText name).toUTF8) :=
  rfl

/-- Its configuration is loaded where the text is read as it is meant and its section is accepted. -/
theorem Machine.loadConfig_grantingSample {name : String} {config : Config}
    (hread : Config.textsIn? (Stamping.grantingText name) = some (Stamping.grantingTexts name))
    (hconfig : Config.ofEntries
      [(Config.sourceName, .table (Entries.ofTexts (Stamping.grantingTexts name)))] = .sound config) :
    (grantingSample name).loadConfig ⟨true, ["art"]⟩ = .ok config := by
  rw [loadConfig_of_node (node_grantingSample name), Config.ofBytes_eq_ok_iff]
  exact ⟨_, Config.ofBytes_of_textsIn? hread, hconfig⟩

theorem Stamping.textsIn?_grantingText :
    Config.textsIn? (grantingText "two names") = some (grantingTexts "two names") := by
  decide +kernel

/-- Where tests are excluded nothing is wrong with the grant. -/
theorem Stamping.declare_grantingTexts :
    (declare (Declaration.direct true (Entries.ofTexts (grantingTexts "two names")))).result =
      .ok sampleDescriptor := by
  apply eq_ok_of_toOption
  decide +kernel

/-- A grant to two names is refused where the section is declared, and left out there where tests are excluded;
the artifact is stamped just so. -/
theorem Machine.stamp_of_refused_grant :
    let m := grantingSample "two names"
    let raw := Entries.ofTexts (Stamping.grantingTexts "two names")
    (∃ e, (declare (Declaration.direct false raw)).result = .error e ∧
        e.malformedField? = some "internal_access_grant" ∧
        (m.stamp ⟨true, ["art"]⟩ none none (some false)).result = .error (.build e)) ∧
      (declare (Declaration.direct true raw)).result = .ok Stamping.sampleDescriptor ∧
      ∃ declared, (m.declareArtifact ⟨true, ["art"]⟩ none (some true)).result = .ok declared ∧
        declared.descriptor = Stamping.sampleDescriptor := by
  intro m raw
  have htexts := Stamping.textsIn?_grantingText
  have haccepted : (Config.ofEntries [(Config.sourceName, .table raw)]).surfaced.toOption.isSome = true := by
    decide +kernel
  obtain ⟨config, hconfig⟩ := Option.isSome_iff_exists.mp haccepted
  have hfile := node_grantingSample "two names"
  have hread := Config.ofBytes_of_textsIn? htexts
  have hload := loadConfig_grantingSample htexts (Checked.eq_sound_iff_toOption.mpr hconfig)
  have hrefused : (errorOf? (declare (Declaration.direct false raw)).result).bind BuildError.malformedField? =
      some "internal_access_grant" := by
    decide +kernel
  have hdeclared : (declare (Declaration.direct true raw)).result = .ok Stamping.sampleDescriptor :=
    Stamping.declare_grantingTexts
  refine ⟨?_, hdeclared, ?_⟩
  · obtain ⟨-, -, herror, -⟩ := stamp_declares_literals none (some false) hfile hread hload rfl
    obtain ⟨e, he, hfield⟩ := Option.bind_eq_some_iff.mp hrefused
    have hresult := errorOf?_eq_some_iff.mp he
    exact ⟨e, hresult, hfield, (herror e).mp hresult⟩
  · obtain ⟨hdescriptor, -⟩ := stamp_declares_literals none (some true) hfile hread hload rfl
    exact ⟨_, (hdescriptor _).mp hdeclared, rfl⟩

end ArtifactIdentity
