import ArtifactIdentity.Proofs.Config.Declared
import ArtifactIdentity.Proofs.Descriptor.Granting
import ArtifactIdentity.Proofs.Files.Alike

/-!
# Excluded tests leave nothing of the grant

Where tests are excluded a builder skips the grant before it looks at the name. Two artifacts whose
configurations differ only in the name that they grant access to are therefore stamped alike: with the same
descriptor and the same block byte for byte, or not at all and for the same reason, whatever the names are.
-/

namespace ArtifactIdentity

/-! ## Configurations that differ in the grant -/

/-- Two documents are the same but for what their section of the descriptor gives for the grant, if it gives
anything. -/
structure Config.DifferInGrant (entries entries' : Entries) : Prop where
  others : ∀ name, name ≠ sourceName → entries'.lookup name = entries.lookup name
  source : entries'.lookup sourceName = entries.lookup sourceName ∨
    ∃ raw raw', entries.lookup sourceName = some (.table raw) ∧
      entries'.lookup sourceName = some (.table raw') ∧
        ∀ key, key ≠ Field.internalAccessGrant.name → raw'.lookup key = raw.lookup key

namespace Config

variable {entries entries' : Entries} {config config' : Config}

/-- They are read as the same build and as sources that declare the same fields. -/
theorem DifferInGrant.read (h : DifferInGrant entries entries') (hconfig : ofEntries entries = .sound config)
    (hconfig' : ofEntries entries' = .sound config') :
    config'.build = config.build ∧
      config'.source.map Source.declaredFields = config.source.map Source.declaredFields := by
  obtain ⟨hsource, hbuild⟩ := ofEntries_eq_sound hconfig
  obtain ⟨hsource', hbuild'⟩ := ofEntries_eq_sound hconfig'
  constructor
  · have hlookup := h.others buildName (by decide)
    unfold sectionOf at hbuild hbuild'
    rw [hlookup, hbuild] at hbuild'
    exact (Checked.sound.inj hbuild').symm
  · rcases h.source with hsame | ⟨raw, raw', hraw, hraw', hkeys⟩
    · unfold sectionOf at hsource hsource'
      rw [hsame, hsource] at hsource'
      rw [Checked.sound.inj hsource']
    · obtain ⟨source, hsome, hread⟩ := exists_source hconfig hraw
      obtain ⟨source', hsome', hread'⟩ := exists_source hconfig' hraw'
      rw [hsome, hsome', Option.map_some, Option.map_some]
      congr 1
      apply Source.declaredFields_congr
      intro f hf
      have hname : f.name ≠ Field.internalAccessGrant.name := by
        intro heq
        have hspelled := congrArg Field.ofSpelling? heq
        rw [Field.ofSpelling?_name, Field.ofSpelling?_name] at hspelled
        exact hf (Option.some.inj hspelled)
      have hkept := (Source.kept_of_ofEntries hread).1 f
      have hkept' := (Source.kept_of_ofEntries hread').1 f
      rw [hkeys _ hname, hkept] at hkept'
      exact (Except.ok.inj hkept').symm

end Config

/-! ## Declaring without a grant -/

namespace Declaration

variable {grant : Literal} {fields : Entries} {d : Descriptor}

/-- Where tests are excluded the grant is skipped unseen. -/
theorem result_onBuilder_of_excluded (grant : Literal) (fields : Entries) :
    (onBuilder true grant fields).result = (Builder.declare { excludeTests := true } fields).result := by
  rw [result_onBuilder_eq, held, Bool.or_true, if_pos rfl]

theorem grant_of_excluded (h : (onBuilder true grant fields).result = .ok d) :
    d.internalAccessGrant = none := by
  rw [result_onBuilder_of_excluded] at h
  unfold Builder.declare at h
  cases hdeclared : Builder.declaration { excludeTests := true } fields with
  | error e =>
    rw [hdeclared] at h
    cases h
  | ok made =>
    rw [hdeclared] at h
    obtain rfl := Except.ok.inj h
    exact (Builder.grant_of_declaration hdeclared).2

end Declaration

/-! ## Stamping -/

/-- What the stamping of an artifact uses of what was declared. -/
def Declared.used (declared : Declared) : BuildSettings × Bool × Descriptor :=
  (declared.config.build, declared.excludeTests, declared.descriptor)

namespace Machine

open FileTree

variable {m : Machine} {t' : FileTree} {l : Location} {root : Pathname} {output : Option Pathname}
  {excludeTests : Option Bool} {data data' : ByteArray} {entries entries' : Entries}
  {config config' : Config}

/-- Artifacts whose declarations come to the same are stamped alike. -/
theorem stamp_alike (h : AlikeBut l m.tree t')
    (hdeclared : ((m.withTree t').declareArtifact root none excludeTests).result.map Declared.used =
      (m.declareArtifact root none excludeTests).result.map Declared.used) :
    AlikeBut l (m.stamp root output none excludeTests).tree
        ((m.withTree t').stamp root output none excludeTests).tree ∧
      ((m.withTree t').stamp root output none excludeTests).result =
        (m.stamp root output none excludeTests).result := by
  unfold stamp
  generalize m.declareArtifact root none excludeTests = made,
    (m.withTree t').declareArtifact root none excludeTests = made' at hdeclared
  obtain ⟨log, result⟩ := made
  obtain ⟨log', result'⟩ := made'
  cases result with
  | error e =>
    cases result' with
    | error e' =>
      obtain rfl := Except.error.inj hdeclared
      exact ⟨h, rfl⟩
    | ok declared' => cases hdeclared
  | ok declared =>
    cases result' with
    | error e' => cases hdeclared
    | ok declared' =>
      obtain ⟨config, flag, d⟩ := declared
      obtain ⟨config', flag', d'⟩ := declared'
      have hused := Except.ok.inj hdeclared
      simp only [Declared.used, Prod.mk.injEq] at hused
      obtain ⟨hbuild, rfl, rfl⟩ := hused
      have hdirectory : (m.withTree t').outputDirectory root output config' =
          m.outputDirectory root output config := by
        unfold outputDirectory
        rw [hbuild, resolveOutput_alike h]
      simp only [hdirectory]
      cases m.outputDirectory root output config with
      | error e => exact ⟨h, rfl⟩
      | ok directory =>
        have hwrite := writeBlock_alike directory d' h
        simp only
        generalize m.writeBlock directory d' = written,
          (m.withTree t').writeBlock directory d' = written' at hwrite
        obtain ⟨t, result⟩ := written
        obtain ⟨u, result'⟩ := written'
        obtain ⟨htrees, rfl⟩ : AlikeBut l t u ∧ result' = result := hwrite
        cases result' with
        | error e => exact ⟨htrees, rfl⟩
        | ok _ => exact ⟨htrees, rfl⟩

/-- Configurations that differ in the grant declare the same where tests are excluded. -/
theorem declareArtifact_alike (hload : m.loadConfig root = .ok config)
    (hload' : (m.withTree t').loadConfig root = .ok config') (hbuild : config'.build = config.build)
    (hsource : config'.source.map Source.declaredFields = config.source.map Source.declaredFields)
    (hexclude : excludeTests.getD config.build.excludeTests = true) :
    ((m.withTree t').declareArtifact root none excludeTests).result.map Declared.used =
      (m.declareArtifact root none excludeTests).result.map Declared.used := by
  simp only [declareArtifact, Option.map_none, Option.getD_none, hload, hload', Config.requireSource]
  cases hs : config.source with
  | none =>
    rw [hs, Option.map_none, Option.map_eq_none_iff] at hsource
    simp only [hsource]
  | some source =>
    rw [hs, Option.map_some] at hsource
    obtain ⟨source', hs', hfields⟩ := Option.map_eq_some_iff.mp hsource
    simp only [hs', hbuild, hexclude, Stamping.declareSource, Declaration.result_onBuilder_of_excluded,
      hfields]
    cases (Builder.declare { excludeTests := true } source.declaredFields).result with
    | error e => rfl
    | ok d => simp [Except.map, Declared.used, hbuild]

/-- **Where tests are excluded the grant of a configuration leaves no trace. Two artifacts that differ only in
the name that they grant access to, or in whether they name one, fail for the same reason or are stamped with
the same descriptor and the same block; nobody is granted access, and the files differ nowhere else.** -/
theorem stamp_erases_grant (output : Option Pathname) (excludeTests : Option Bool)
    (halike : AlikeBut l m.tree t')
    (hfile : m.node (Config.fileUnder root) = .ok (.file data))
    (hfile' : (m.withTree t').node (Config.fileUnder root) = .ok (.file data'))
    (hread : Toml.ofBytes data = .ok entries) (hread' : Toml.ofBytes data' = .ok entries')
    (hload : m.loadConfig root = .ok config) (hload' : (m.withTree t').loadConfig root = .ok config')
    (hdiffer : Config.DifferInGrant entries entries')
    (hexclude : excludeTests.getD config.build.excludeTests = true) :
    let change := m.stamp root output none excludeTests
    let change' := (m.withTree t').stamp root output none excludeTests
    change'.result = change.result ∧ AlikeBut l change.tree change'.tree ∧
      ∀ stamped, change.result = .ok stamped →
        stamped.descriptor.internalAccessGrant = none ∧
          stamped.descriptor.fact .internalAccessGrant = .none ∧
          (∀ requester, stamped.descriptor.canAccessInternals requester = false) ∧
          (m.withTree change.tree).node stamped.block = .ok (.file (Block.bytes stamped.descriptor)) ∧
          (m.withTree change'.tree).node stamped.block = .ok (.file (Block.bytes stamped.descriptor)) := by
  intro change change'
  obtain ⟨hbuild, hsource⟩ := hdiffer.read (ofEntries_of_loadConfig hfile hread hload)
    (ofEntries_of_loadConfig hfile' hread' hload')
  have hdeclared := declareArtifact_alike hload hload' hbuild hsource hexclude
  obtain ⟨htrees, hresult⟩ : AlikeBut l change.tree change'.tree ∧ change'.result = change.result :=
    stamp_alike halike hdeclared
  have hblock {m : Machine} {stamped : Stamped}
      (h : (m.stamp root output none excludeTests).result = .ok stamped) :
      (m.withTree (m.stamp root output none excludeTests).tree).node stamped.block =
        .ok (.file (Block.bytes stamped.descriptor)) := by
    obtain ⟨declared, directory, _, _, hwrite, rfl⟩ := stamp_eq_ok h
    obtain ⟨_, b, _, _, _, _, hlocate⟩ := writeBlock_eq_ok hwrite
    exact node_eq_ok_iff.mpr ⟨b, hlocate⟩
  refine ⟨hresult, htrees, ?_⟩
  intro stamped hstamped
  have hnone : stamped.descriptor.internalAccessGrant = none := by
    obtain ⟨declared, directory, hd, _, _, rfl⟩ := stamp_eq_ok hstamped
    obtain ⟨hown, source, _, hflag, hmade⟩ := declareArtifact_eq_ok hd
    have hsame : config = declared.config := Except.ok.inj (hload.symm.trans hown)
    rw [hflag, ← hsame, hexclude] at hmade
    exact Declaration.grant_of_excluded hmade
  refine ⟨hnone, ?_, ?_, hblock hstamped, ?_⟩
  · rw [Descriptor.fact, hnone]
    rfl
  · intro requester
    simp only [Descriptor.canAccessInternals, hnone]
  · exact hblock (hresult.trans hstamped)

theorem withTree_self (m : Machine) : m.withTree m.tree = m :=
  rfl

theorem withTree_grantingSample (name name' : String) (t : FileTree) :
    (grantingSample name).withTree t = (grantingSample name').withTree t := by
  simp only [grantingSample, sample, withTree]

/-- The samples with a grant differ in their configurations alone. -/
theorem alikeBut_grantingSample (name name' : String) :
    AlikeBut ["art", "descriptor.toml"] (grantingSample name).tree (grantingSample name').tree := by
  constructor
  · exact ⟨_, rfl⟩
  · exact ⟨_, rfl⟩
  · intro here hne
    have hlast : (here == ["art", "descriptor.toml"]) = false := beq_eq_false_iff_ne.mpr hne
    simp only [grantingSample, sample, get?, List.lookup_cons, hlast]

theorem differInGrant_grantingTexts (name name' : String) :
    Config.DifferInGrant
      [(Config.sourceName, .table (Entries.ofTexts (Stamping.grantingTexts name)))]
      [(Config.sourceName, .table (Entries.ofTexts (Stamping.grantingTexts name')))] := by
  constructor
  · intro other hother
    rw [Table.lookup_cons_of_ne hother, Table.lookup_cons_of_ne hother]
  · refine Or.inr ⟨_, _, List.lookup_cons_self, List.lookup_cons_self, ?_⟩
    intro key hkey
    have hlast : (key == "internal_access_grant") = false := beq_eq_false_iff_ne.mpr hkey
    simp only [Entries.ofTexts, Stamping.grantingTexts, List.map_cons, List.map_nil, List.lookup_cons, hlast]

/-- A grant to two names is refused where tests are not excluded, and stamped like a grant to one name where
they are. -/
theorem stamp_erases_grant_of_sample :
    ((grantingSample "W.Tests").stamp ⟨true, ["art"]⟩ none none (some true)).result =
        ((grantingSample "two names").stamp ⟨true, ["art"]⟩ none none (some true)).result ∧
      ∃ stamped,
        ((grantingSample "two names").stamp ⟨true, ["art"]⟩ none none (some true)).result = .ok stamped ∧
          stamped.descriptor = Stamping.sampleDescriptor ∧
          stamped.descriptor.canAccessInternals (.text "W.Tests") = false ∧
          ((grantingSample "W.Tests").withTree
              ((grantingSample "W.Tests").stamp ⟨true, ["art"]⟩ none none (some true)).tree).node
            stamped.block = .ok (.file (Block.bytes Stamping.sampleDescriptor)) := by
  have htexts := Stamping.textsIn?_grantingText
  have htexts' : Config.textsIn? (Stamping.grantingText "W.Tests") =
      some (Stamping.grantingTexts "W.Tests") := by
    decide +kernel
  have haccepted : (Config.ofEntries [(Config.sourceName, .table (Entries.ofTexts
      (Stamping.grantingTexts "two names")))]).surfaced.toOption.map Config.build = some .default := by
    decide +kernel
  have haccepted' : (Config.ofEntries [(Config.sourceName, .table (Entries.ofTexts
      (Stamping.grantingTexts "W.Tests")))]).surfaced.toOption.isSome = true := by
    decide +kernel
  obtain ⟨config, hconfig, hbuild⟩ := Option.map_eq_some_iff.mp haccepted
  obtain ⟨config', hconfig'⟩ := Option.isSome_iff_exists.mp haccepted'
  have hread := Config.ofBytes_of_textsIn? htexts
  have hload := loadConfig_grantingSample htexts (Checked.eq_sound_iff_toOption.mpr hconfig)
  have hload' := loadConfig_grantingSample htexts' (Checked.eq_sound_iff_toOption.mpr hconfig')
  have hother : (grantingSample "two names").withTree (grantingSample "W.Tests").tree =
      grantingSample "W.Tests" := by
    rw [withTree_grantingSample _ "W.Tests", withTree_self]
  have hfile' := node_grantingSample "W.Tests"
  rw [← hother] at hload' hfile'
  have hdeclared : ((grantingSample "two names").declareArtifact ⟨true, ["art"]⟩ none (some true)).result =
      .ok ⟨config, true, Stamping.sampleDescriptor⟩ := by
    rw [declareArtifact_eq_direct (node_grantingSample "two names") hread hload rfl, Option.getD_some,
      Stamping.declare_grantingTexts]
    rfl
  have hdirectory : (grantingSample "two names").outputDirectory ⟨true, ["art"]⟩ none config =
      .ok (.ofLocation ["art", ".descriptor"]) := by
    rw [outputDirectory, hbuild]
    rfl
  have hwrite : ∃ t, (grantingSample "two names").writeBlock (.ofLocation ["art", ".descriptor"])
      Stamping.sampleDescriptor = (t, .ok ()) :=
    ⟨_, rfl⟩
  obtain ⟨t, hwrite⟩ := hwrite
  have hchange := congrArg Change.result (stamp_of_writeBlock hdeclared hdirectory hwrite)
  obtain ⟨hresult, -, hstamped⟩ := stamp_erases_grant none (some true)
    (alikeBut_grantingSample "two names" "W.Tests") (node_grantingSample "two names") hfile' hread
    (Config.ofBytes_of_textsIn? htexts') hload hload'
    (differInGrant_grantingTexts "two names" "W.Tests") rfl
  obtain ⟨-, -, hsealed, -, hblock⟩ := hstamped _ hchange
  rw [hother] at hresult hblock
  rw [withTree_grantingSample _ "W.Tests"] at hblock
  exact ⟨hresult, _, hchange, rfl, hsealed _, hblock⟩

end Machine

end ArtifactIdentity
