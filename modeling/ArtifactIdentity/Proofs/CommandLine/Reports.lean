import ArtifactIdentity.CommandLine.Run
import ArtifactIdentity.Proofs.Verification

/-!
# What a report tells

A report is faithful to its request. The exit code is zero exactly where what was asked for has been done or
holds. Any other code comes without output, with reasons, and with the files as they were. Only a stamping
that succeeds changes files; a verification makes a directory for passing use, and once that is gone nothing
of the restamp is left.
-/

namespace ArtifactIdentity

namespace CommandLine

open Machine (plainSample)

/-! ## Faithful reports -/

/-- What a program prints beside its output, notice by notice. -/
def Report.errorText (r : Report) (time : String) (rephrase : String → String) : String :=
  String.join (r.notices.map fun n => n.line time rephrase ++ "\n")

/-- A report tells of success by the code zero, and only then. A report with another code leaves the files as
they were before, and has notices in the place of output. -/
structure Report.Tells (r : Report) (before : FileTree) (success : Prop) : Prop where
  exit_zero : r.ending = .exit 0 ↔ success
  refusal : ∀ code, r.ending = .exit code → code ≠ 0 → r.tree = before ∧ r.output = "" ∧ r.notices ≠ []

namespace Report

variable {r : Report} {before tree : FileTree} {success success' : Prop} {code : Nat}
  {notices : List Notice} {output : String}

theorem Tells.congr (h : r.Tells before success) (hsame : success ↔ success') :
    r.Tells before success' :=
  ⟨h.exit_zero.trans hsame, h.refusal⟩

theorem Tells.behind (h : r.Tells before success) (notices : List Notice) :
    (r.behind notices).Tells before success := by
  refine ⟨h.exit_zero, ?_⟩
  intro code hcode hne
  obtain ⟨htree, houtput, hnotices⟩ := h.refusal code hcode hne
  exact ⟨htree, houtput, List.append_ne_nil_of_right_ne_nil _ hnotices⟩

theorem tells_success (before tree : FileTree) (output : String) (h : success) :
    (Report.success tree output).Tells before success := by
  refine ⟨iff_of_true rfl h, ?_⟩
  rintro code ⟨⟩ hne
  exact absurd rfl hne

theorem tells_refusal (tree : FileTree) (hcode : code ≠ 0) (hnotices : notices ≠ []) (h : ¬ success) :
    (Report.refusal tree code notices).Tells tree success := by
  constructor
  · refine iff_of_false ?_ h
    rintro ⟨⟩
    exact hcode rfl
  · rintro _ ⟨⟩ _
    exact ⟨rfl, rfl, hnotices⟩

/-- A failure is no success, and where it is reported the files have to be as they were. -/
theorem tells_failed {e : Failure} (hcode : code ≠ 0) (htree : e.isReported = true → tree = before)
    (h : ¬ success) : (Report.failed tree code e).Tells before success := by
  unfold Report.failed
  split
  · rename_i hreported
    rw [htree hreported]
    exact tells_refusal before hcode (List.cons_ne_nil _ _) h
  · constructor
    · refine iff_of_false ?_ h
      rintro ⟨⟩
    · rintro _ ⟨⟩

/-- Every notice is a line, so there is a text where there is a notice. -/
theorem errorText_ne_empty (h : r.notices ≠ []) (time : String) (rephrase : String → String) :
    r.errorText time rephrase ≠ "" := by
  obtain ⟨n, rest, hnotices⟩ := List.exists_cons_of_ne_nil h
  intro hempty
  have hlength := congrArg String.length hempty
  simp [errorText, hnotices] at hlength

end Report

/-! ## What the commands do -/

/-- Blocks that do not agree leave a notice. -/
theorem differenceNotices_ne_nil {c : Comparison} (h : c.ok = false) : differenceNotices c ≠ [] := by
  intro hnil
  simp only [differenceNotices, List.append_eq_nil_iff, List.map_eq_nil_iff] at hnil
  obtain ⟨⟨hmissing, hextra⟩, hmismatches⟩ := hnil
  rw [Comparison.ok, hmissing, hextra, hmismatches] at h
  cases h

/-- What a request asks for is done or holds: an artifact is stamped, a block is loaded and has the field that
is asked for, a block has no flaw, or a block agrees with a new stamping. -/
def Succeeds (m : Machine) (r : Request) : Prop :=
  ∃ root, givenPath m r.root = .ok root ∧
    match r.command with
    | .stamp given excludeTests =>
      ∃ output stamped, givenOutput m given = .ok output ∧
        (m.stamp root output none excludeTests).result = .ok stamped
    | .display given field =>
      ∃ directory, artifactsDirectory m root given = .ok directory ∧
        ∃ d, m.load directory = .ok d ∧ ∀ word ∈ field, (Field.ofSpelling? word).isSome = true
    | .validate given strict =>
      ∃ directory, artifactsDirectory m root given = .ok directory ∧
        (m.validate directory strict).errors = []
    | .verify given excludeTests =>
      ∃ directory, artifactsDirectory m root given = .ok directory ∧
        ∃ c, (m.verify root directory excludeTests).result = .ok c ∧ c.ok = true

variable {m : Machine} {root directory : Pathname} {given : Option String} {excludeTests : Option Bool}

/-- A failure that is reported comes before the first change to the files. -/
theorem stamp_tree_of_reported {output : Option Pathname} {e : Failure}
    (h : (m.stamp root output none excludeTests).result = .error e) (hreported : e.isReported = true) :
    (m.stamp root output none excludeTests).tree = m.tree := by
  rcases Machine.stamp_eq_error h with hsame | ⟨cause, _, rfl, -⟩
  · exact hsame
  · cases hreported

theorem runStamp_tells (m : Machine) (verbose : Bool) (root : Pathname) (given : Option String)
    (excludeTests : Option Bool) :
    (runStamp m verbose root given excludeTests).Tells m.tree
      (∃ output stamped, givenOutput m given = .ok output ∧
        (m.stamp root output none excludeTests).result = .ok stamped) := by
  unfold runStamp
  split
  · rename_i e hgiven
    apply Report.tells_failed Nat.one_ne_zero fun _ => rfl
    rintro ⟨output, stamped, houtput, -⟩
    cases hgiven.symm.trans houtput
  · rename_i output hgiven
    simp only
    split
    · rename_i e he
      apply Report.Tells.behind
      apply Report.tells_failed Nat.one_ne_zero (stamp_tree_of_reported he)
      rintro ⟨output', stamped, houtput, hstamped⟩
      obtain rfl := Except.ok.inj (hgiven.symm.trans houtput)
      cases he.symm.trans hstamped
    · rename_i stamped hstamped
      apply Report.Tells.behind
      exact Report.tells_success _ _ _ ⟨output, stamped, hgiven, hstamped⟩

theorem runDisplay_tells (m : Machine) (directory : Pathname) (field : Option String) :
    (runDisplay m directory field).Tells m.tree
      (∃ d, m.load directory = .ok d ∧ ∀ word ∈ field, (Field.ofSpelling? word).isSome = true) := by
  unfold runDisplay
  split
  · rename_i e he
    apply Report.tells_refusal _ Nat.one_ne_zero (List.cons_ne_nil _ _)
    rintro ⟨d, hd, -⟩
    cases he.symm.trans hd
  · rename_i d hd
    split
    · exact Report.tells_success _ _ _ ⟨d, hd, by simp⟩
    · rename_i word
      split
      · rename_i f hf
        refine Report.tells_success _ _ _ ⟨d, hd, ?_⟩
        rintro _ ⟨⟩
        rw [hf]
        rfl
      · rename_i hnone
        apply Report.tells_refusal _ (Nat.succ_ne_zero 1) (List.cons_ne_nil _ _)
        rintro ⟨_, -, hspelled⟩
        have hsome := hspelled word rfl
        rw [hnone] at hsome
        cases hsome

theorem runValidate_tells (m : Machine) (directory : Pathname) (strict : Bool) :
    (runValidate m directory strict).Tells m.tree ((m.validate directory strict).errors = []) := by
  have hok : (m.validate directory strict).ok = true ↔ (m.validate directory strict).errors = [] := by
    rw [Inspection.ok, List.isEmpty_iff]
  rw [← hok]
  by_cases hsound : (m.validate directory strict).ok = true
  · constructor
    · refine iff_of_true ?_ hsound
      simp [runValidate, hsound]
    · intro code hcode hne
      simp only [runValidate, hsound, if_true, Ending.exit.injEq] at hcode
      exact absurd hcode.symm hne
  · constructor
    · refine iff_of_false ?_ hsound
      simp [runValidate, hsound]
    · intro code _ _
      refine ⟨rfl, rfl, ?_⟩
      rw [hok] at hsound
      simp [runValidate, hsound]

theorem runVerify_tells (m : Machine) (verbose : Bool) (root directory : Pathname)
    (excludeTests : Option Bool) :
    (runVerify m verbose root directory excludeTests).Tells m.tree
      (∃ c, (m.verify root directory excludeTests).result = .ok c ∧ c.ok = true) := by
  unfold runVerify
  simp only [Machine.verify_tree]
  apply Report.Tells.behind
  split
  · rename_i e he
    apply Report.tells_failed (Nat.succ_ne_zero 1) fun _ => rfl
    rintro ⟨c, hc, -⟩
    cases he.symm.trans hc
  · rename_i e _ he
    apply Report.tells_refusal _ (Nat.succ_ne_zero 1) (List.cons_ne_nil _ _)
    rintro ⟨c, hc, -⟩
    cases he.symm.trans hc
  · rename_i c hc
    split
    · rename_i hok
      exact Report.tells_success _ _ _ ⟨c, hc, hok⟩
    · rename_i hok
      apply Report.tells_refusal _ Nat.one_ne_zero (differenceNotices_ne_nil (by simpa using hok))
      rintro ⟨c', hc', hok'⟩
      obtain rfl := Except.ok.inj (hc.symm.trans hc')
      exact hok hok'

/-- A result that is known is the one that there is. -/
theorem exists_eq_ok_iff {ε α : Type} {x : Except ε α} {a : α} {P : α → Prop} (h : x = .ok a) :
    (∃ b, x = .ok b ∧ P b) ↔ P a := by
  constructor
  · rintro ⟨b, hb, hP⟩
    obtain rfl := Except.ok.inj (h.symm.trans hb)
    exact hP
  · intro hP
    exact ⟨a, h, hP⟩

/-- A command on a directory fails where there is none to work on. -/
theorem onDirectory_tells {run : Pathname → Report} {success : Pathname → Prop}
    (h : ∀ directory, (run directory).Tells m.tree (success directory)) :
    (onDirectory m root given run).Tells m.tree
      (∃ directory, artifactsDirectory m root given = .ok directory ∧ success directory) := by
  unfold onDirectory
  split
  · rename_i e he
    apply Report.tells_failed Nat.one_ne_zero fun _ => rfl
    rintro ⟨directory, hdirectory, -⟩
    cases he.symm.trans hdirectory
  · rename_i directory hdirectory
    exact (h directory).congr (exists_eq_ok_iff hdirectory).symm

/-- **Every request is reported as it went.** -/
theorem run_tells (m : Machine) (r : Request) : (run m r).Tells m.tree (Succeeds m r) := by
  unfold run Succeeds
  split
  · rename_i e he
    apply Report.tells_failed Nat.one_ne_zero fun _ => rfl
    rintro ⟨root, hroot, -⟩
    cases he.symm.trans hroot
  · rename_i root hroot
    refine Report.Tells.congr ?_ (exists_eq_ok_iff hroot).symm
    cases r.command with
    | stamp given excludeTests => exact runStamp_tells m r.verbose root given excludeTests
    | display given field => exact onDirectory_tells fun directory => runDisplay_tells m directory field
    | validate given strict => exact onDirectory_tells fun directory => runValidate_tells m directory strict
    | verify given excludeTests =>
      exact onDirectory_tells fun directory => runVerify_tells m r.verbose root directory excludeTests

/-! ## The files and the output -/

theorem tree_behind (r : Report) (notices : List Notice) : (r.behind notices).tree = r.tree :=
  rfl

theorem tree_failed (tree : FileTree) (code : Nat) (e : Failure) : (Report.failed tree code e).tree = tree := by
  unfold Report.failed
  split <;> rfl

/-- Only a stamping changes files. -/
theorem tree_run {r : Request} (h : ∀ given excludeTests, r.command ≠ .stamp given excludeTests) :
    (run m r).tree = m.tree := by
  have hdirectory {root : Pathname} {given : Option String} {run : Pathname → Report}
      (hrun : ∀ directory, (run directory).tree = m.tree) : (onDirectory m root given run).tree = m.tree := by
    unfold onDirectory
    split
    · exact tree_failed _ _ _
    · exact hrun _
  unfold run
  split
  · exact tree_failed _ _ _
  rename_i root _
  cases hcommand : r.command with
  | stamp given excludeTests => exact absurd hcommand (h given excludeTests)
  | display given field =>
    apply hdirectory
    intro directory
    unfold runDisplay
    split
    · rfl
    · split
      · rfl
      · split <;> rfl
  | validate given strict => exact hdirectory fun _ => rfl
  | verify given excludeTests =>
    apply hdirectory
    intro directory
    unfold runVerify
    simp only [Machine.verify_tree]
    rw [tree_behind]
    split
    · exact tree_failed _ _ _
    · rfl
    · split <;> rfl

/-- The output of a stamping that succeeds is the path of its block, and the files are as it leaves them. -/
theorem run_stamp_of_success {r : Request} (hcommand : r.command = .stamp given excludeTests)
    (hexit : (run m r).ending = .exit 0) :
    ∃ root output stamped, givenPath m r.root = .ok root ∧ givenOutput m given = .ok output ∧
      (m.stamp root output none excludeTests).result = .ok stamped ∧
        (run m r).output = stamped.block.text ++ "\n" ∧
          (run m r).tree = (m.stamp root output none excludeTests).tree := by
  have hsuccess := (run_tells m r).exit_zero.mp hexit
  unfold Succeeds at hsuccess
  rw [hcommand] at hsuccess
  obtain ⟨root, hroot, output, stamped, houtput, hstamped⟩ := hsuccess
  refine ⟨root, output, stamped, hroot, houtput, hstamped, ?_⟩
  simp only [run, hroot, hcommand, runStamp, houtput, hstamped]
  exact ⟨rfl, rfl⟩

theorem answer_of_parse {words : List String} {request : Request} (h : parse words = .ok request) :
    answer m words = .ok (run m request) := by
  rw [answer, h]
  rfl

/-- **Whatever is on the disk and on the command line, the report is faithful.** Showing, validating and
verifying change no file, and of the restamp of a verification nothing is left once its directory is gone. The
code is zero exactly where the request succeeds; a stamping then prints the path of its block. With any other
code the files are as they were, there is no output, and there are reasons. -/
theorem answer_tells_outcome {words : List String} {r : Report} (h : answer m words = .ok r) :
    ∃ request, parse words = .ok request ∧
      ((∀ given excludeTests, request.command ≠ .stamp given excludeTests) → r.tree = m.tree) ∧
      (∀ above name top, m.ScratchAt above name top → ∀ root excludeTests l,
        ((m.withScratch.stamp root (some m.scratch) none excludeTests).tree.erase (top ++ [name])).get? l =
          m.tree.get? l) ∧
      (r.ending = .exit 0 ↔ Succeeds m request) ∧
      (∀ given excludeTests, request.command = .stamp given excludeTests → r.ending = .exit 0 →
        ∃ root output stamped, givenPath m request.root = .ok root ∧ givenOutput m given = .ok output ∧
          (m.stamp root output none excludeTests).result = .ok stamped ∧
            r.output = stamped.block.text ++ "\n" ∧
              r.tree = (m.stamp root output none excludeTests).tree) ∧
      ∀ code, r.ending = .exit code → code ≠ 0 →
        r.tree = m.tree ∧ r.output = "" ∧ ∀ time rephrase, r.errorText time rephrase ≠ "" := by
  unfold answer at h
  cases hparse : parse words with
  | error refusal =>
    rw [hparse] at h
    cases h
  | ok request =>
    rw [hparse] at h
    obtain rfl := Except.ok.inj h
    have htells := run_tells m request
    refine ⟨request, rfl, tree_run, ?_, htells.exit_zero, fun _ _ => run_stamp_of_success, ?_⟩
    · intro above name top hscratch root excludeTests l
      rw [Machine.erase_restamp hscratch.scratchPlace]
    · intro code hcode hne
      obtain ⟨htree, houtput, hnotices⟩ := htells.refusal code hcode hne
      exact ⟨htree, houtput, Report.errorText_ne_empty hnotices⟩

/-- On the sample artifact a stamping succeeds and prints the path of the block, and a validation of a
directory that is not there fails. -/
theorem answer_tells_outcome_on_sample :
    (∃ r, answer plainSample ["stamp", "."] = .ok r ∧ r.ending = .exit 0 ∧
      r.output = "/art/.descriptor/descriptor.json\n") ∧
    ∃ r, answer plainSample ["validate", "--artifacts-dir", "out"] = .ok r ∧ r.ending = .exit 1 ∧
      r.output = "" ∧ r.tree = plainSample.tree ∧ r.errorText "" id ≠ "" := by
  have hroot : givenPath plainSample "." = .ok ⟨true, ["art"]⟩ := rfl
  constructor
  · have hparse : parse ["stamp", "."] = .ok ⟨false, ".", .stamp none none⟩ := by decide +kernel
    have hfile : plainSample.node (Config.fileUnder ⟨true, ["art"]⟩) =
        .ok (.file Stamping.sampleText.toUTF8) := rfl
    have hout : plainSample.resolveOutput ⟨true, ["art"]⟩ BuildSettings.defaultOutputDirectory =
        .ok ["art", ".descriptor"] := rfl
    have hwrite : plainSample.writeBlock (.ofLocation ["art", ".descriptor"]) Stamping.sampleDescriptor =
        (Machine.settledSample.tree, .ok ()) := rfl
    obtain ⟨declared, hdeclared, hd, hdirectory⟩ := Machine.declareArtifact_sampleText hfile hout
    rw [← hd] at hwrite
    have hresult := congrArg Change.result (Machine.stamp_of_writeBlock hdeclared hdirectory hwrite)
    have hanswer := answer_of_parse (m := plainSample) hparse
    obtain ⟨request, hrequest, -, -, hexit, hprints, -⟩ := answer_tells_outcome hanswer
    obtain rfl := Except.ok.inj (hparse.symm.trans hrequest)
    have hzero := hexit.mpr ⟨_, hroot, none, _, rfl, hresult⟩
    obtain ⟨root, output, stamped, hroot', houtput, hstamped, hprinted, -⟩ := hprints none none rfl hzero
    obtain rfl := Except.ok.inj (hroot.symm.trans hroot')
    obtain rfl := Except.ok.inj houtput
    obtain rfl := Except.ok.inj (hresult.symm.trans hstamped)
    refine ⟨_, hanswer, hzero, ?_⟩
    rw [hprinted]
    show ((Pathname.ofLocation ["art", ".descriptor"]).child Block.fileName).text ++ "\n" = _
    decide +kernel
  · have hparse : parse ["validate", "--artifacts-dir", "out"] =
        .ok ⟨false, ".", .validate (some "out") false⟩ := by decide +kernel
    have hgiven : artifactsDirectory plainSample ⟨true, ["art"]⟩ (some "out") =
        .ok ⟨true, ["art", "out"]⟩ := rfl
    have hanswer := answer_of_parse (m := plainSample) hparse
    have hcode : (run plainSample ⟨false, ".", .validate (some "out") false⟩).ending = .exit 1 := by
      simp only [run, hroot, onDirectory, hgiven, runValidate]
      rfl
    obtain ⟨-, -, -, -, -, -, hrefused⟩ := answer_tells_outcome hanswer
    obtain ⟨htree, houtput, htext⟩ := hrefused 1 hcode Nat.one_ne_zero
    exact ⟨_, hanswer, hcode, houtput, htree, htext "" id⟩

end CommandLine

end ArtifactIdentity
