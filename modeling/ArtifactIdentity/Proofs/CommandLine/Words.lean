import ArtifactIdentity.CommandLine.Request
import Mathlib.Data.List.Infix

/-!
# Command lines that are understood

A word that every command takes as an argument can stand for the root or for a directory in any command
line. Such a line is read as the request that its words spell: a command, the root, and switches with their
values behind it.
-/

namespace ArtifactIdentity.CommandLine

/-- A word that every command takes as an argument. -/
def IsOperand (word : String) : Prop :=
  ∀ name : CommandName, classify name.switches word = .argument

variable {switches : List Switch} {word : String} {words rest : List String} {g : Given}

/-! ## Words -/

theorem unnamed_ne_ambiguous (cs : List Char) : unnamed cs ≠ .ambiguous := by
  unfold unnamed
  split <;> decide

theorem takeWhile_long (cs : List Char) :
    ('-' :: '-' :: cs).takeWhile (· ≠ '=') = '-' :: '-' :: cs.takeWhile (· ≠ '=') := by
  simp

/-- A long word is the beginning of several switches of the program only where nothing stands between its
two hyphens and an equals sign. -/
theorem eq_nil_of_longWord_ambiguous {cs : List Char}
    (h : longWord programSwitches ('-' :: '-' :: cs) = .ambiguous) : cs.takeWhile (· ≠ '=') = [] := by
  cases hname : cs.takeWhile (· ≠ '=') with
  | nil => rfl
  | cons c name =>
    -- No two switches of the program have the same first letter in their names.
    have hapart : ¬ (('-' :: '-' :: c :: name).isPrefixOf Switch.help.longName.toList = true ∧
        ('-' :: '-' :: c :: name).isPrefixOf Switch.verbose.longName.toList = true) := by
      rintro ⟨hhelp, hverbose⟩
      simp [Switch.longName, List.isPrefixOf] at hhelp hverbose
      rw [hhelp.1] at hverbose
      exact absurd hverbose.1 (by decide)
    unfold longWord at h
    rw [takeWhile_long, hname] at h
    simp only [programSwitches, List.filter_cons, List.filter_nil] at h
    split at h
    · cases h
    · cases hhelp : ('-' :: '-' :: c :: name).isPrefixOf Switch.help.longName.toList with
      | true =>
        cases hverbose : ('-' :: '-' :: c :: name).isPrefixOf Switch.verbose.longName.toList with
        | true => exact absurd ⟨hhelp, hverbose⟩ hapart
        | false =>
          rw [hhelp, hverbose] at h
          cases h
      | false =>
        cases hverbose : ('-' :: '-' :: c :: name).isPrefixOf Switch.verbose.longName.toList with
        | true =>
          rw [hhelp, hverbose] at h
          cases h
        | false =>
          rw [hhelp, hverbose] at h
          exact absurd h (unnamed_ne_ambiguous _)

theorem longWord_stamp_of_nil {cs : List Char} (h : cs.takeWhile (· ≠ '=') = []) :
    longWord CommandName.stamp.switches ('-' :: '-' :: cs) = .ambiguous := by
  unfold longWord
  rw [takeWhile_long, h]
  rfl

/-- A word that is the beginning of several switches of the program is that for the commands, too. -/
theorem IsOperand.not_ambiguous (h : IsOperand word) : classify programSwitches word ≠ .ambiguous := by
  have hstamp := h .stamp
  unfold classify at hstamp ⊢
  split
  · rename_i cs hcs
    intro hambiguous
    rw [hcs] at hstamp
    have hlong : longWord CommandName.stamp.switches ('-' :: '-' :: cs) = .argument := hstamp
    rw [longWord_stamp_of_nil (eq_nil_of_longWord_ambiguous hambiguous)] at hlong
    cases hlong
  · split
    · exact Word.noConfusion
    · exact unnamed_ne_ambiguous _
  · exact Word.noConfusion

theorem IsOperand.ne_separator (h : IsOperand word) : word ≠ separator := by
  rintro rfl
  have hstamp := h .stamp
  revert hstamp
  decide +kernel

theorem hasAmbiguous_eq_false (h : ∀ w ∈ words, classify switches w ≠ .ambiguous) :
    hasAmbiguous switches words = false := by
  rw [hasAmbiguous, List.any_eq_false]
  intro w hw
  have hne := h w ((List.takeWhile_prefix _).subset hw)
  simpa using hne

/-! ## The words of a command -/

theorem readWords_argument (hword : classify switches word = .argument) (hne : word ≠ separator) :
    readWords switches g (word :: rest) = readWords switches (g.argument word) rest := by
  rw [readWords, if_neg hne, hword]

theorem readWords_flip {s : Switch} {g' : Given} (hword : classify switches word = .long s none)
    (hne : word ≠ separator) (hs : s.takesValue = false)
    (hflip : Given.flip { g with rootIsLast := false } s = .ok g') :
    readWords switches g (word :: rest) = readWords switches g' rest := by
  rw [readWords, if_neg hne, hword]
  simp only [hs, hflip]
  rfl

theorem readWords_assign {s : Switch} {value : String} {g' : Given}
    (hword : classify switches word = .long s none) (hne : word ≠ separator)
    (hs : s.takesValue = true) (hvalue : classify switches value = .argument)
    (hvalue' : value ≠ separator)
    (hassign : Given.assign { g with rootIsLast := false } s value = .ok g') :
    readWords switches g (word :: value :: rest) = readWords switches g' rest := by
  rw [readWords, if_neg hne, hword]
  simp only [hs, hvalue, hassign]
  simp [hvalue']

/-! ## The words of the four commands -/

/-- A word that has one meaning for a command: an operand or the name of one of its switches. -/
def HasMeaning (name : CommandName) (word : String) : Prop :=
  IsOperand word ∨ ∃ s ∈ name.switches, word = s.longName

theorem classify_longName {name : CommandName} {s : Switch} (hs : s ∈ name.switches) :
    classify name.switches s.longName = .long s none := by
  revert hs
  cases name <;> cases s <;> decide +kernel

theorem classify_program_longName (s : Switch) :
    classify programSwitches s.longName ≠ .ambiguous := by
  cases s <;> decide +kernel

theorem longName_ne_separator (s : Switch) : s.longName ≠ separator := by
  cases s <;> decide +kernel

/-- A command with its words behind no switches of the program. -/
theorem parse_command {name : CommandName} {own : Given} (hname : CommandName.ofWord? word = some name)
    (hword : IsOperand word) (hargument : classify programSwitches word = .argument)
    (hwords : ∀ w ∈ words, HasMeaning name w)
    (hread : readWords name.switches {} words = .ok own) (hknown : own.unknown = false) :
    parse (word :: words) = .ok ⟨false, own.root.getD ".", name.command own⟩ := by
  -- All words are first looked at with the switches of the program, then those of the command.
  have hprogram : ∀ w ∈ word :: words, classify programSwitches w ≠ .ambiguous := by
    intro w hw
    rcases List.mem_cons.mp hw with rfl | hw
    · exact hword.not_ambiguous
    · rcases hwords w hw with hoperand | ⟨s, _, rfl⟩
      · exact hoperand.not_ambiguous
      · exact classify_program_longName s
  have hcommand : ∀ w ∈ words, classify name.switches w ≠ .ambiguous := by
    intro w hw
    rcases hwords w hw with hoperand | ⟨s, hs, rfl⟩
    · rw [hoperand name]
      exact Word.noConfusion
    · rw [classify_longName hs]
      exact Word.noConfusion
  rw [parse, hasAmbiguous_eq_false hprogram]
  simp only [Bool.false_eq_true, if_false]
  rw [readProgram, if_neg hword.ne_separator, hargument]
  simp only [hname]
  rw [readCommand, hasAmbiguous_eq_false hcommand]
  simp only [Bool.false_eq_true, if_false, hread, hknown]
  rfl

/-- The words that give a directory by a switch. -/
def directoryWords (s : Switch) : Option String → List String
  | none => []
  | some word => [s.longName, word]

/-- The words for what is said about tests. -/
def testsWords : Option Bool → List String
  | none => []
  | some true => [Switch.excludeTests.longName]
  | some false => [Switch.includeTests.longName]

theorem hasMeaning_of_mem_directoryWords {name : CommandName} {s : Switch} {given : Option String}
    (hs : s ∈ name.switches) (hgiven : ∀ w ∈ given, IsOperand w) :
    ∀ w ∈ directoryWords s given, HasMeaning name w := by
  intro w hw
  cases given with
  | none => cases hw
  | some word =>
    simp only [directoryWords, List.mem_cons, List.not_mem_nil, or_false] at hw
    rcases hw with rfl | rfl
    · exact Or.inr ⟨s, hs, rfl⟩
    · exact Or.inl (hgiven w rfl)

theorem hasMeaning_of_mem_testsWords {name : CommandName} {excludeTests : Option Bool}
    (hexclude : .excludeTests ∈ name.switches) (hinclude : .includeTests ∈ name.switches) :
    ∀ w ∈ testsWords excludeTests, HasMeaning name w := by
  intro w hw
  rcases excludeTests with _ | _ | _
  · cases hw
  · obtain rfl := List.mem_singleton.mp hw
    exact Or.inr ⟨_, hinclude, rfl⟩
  · obtain rfl := List.mem_singleton.mp hw
    exact Or.inr ⟨_, hexclude, rfl⟩

theorem readWords_root {name : CommandName} (hroot : IsOperand word) :
    readWords name.switches {} (word :: rest) =
      readWords name.switches { root := some word, rootIsLast := true } rest :=
  readWords_argument (hroot name) hroot.ne_separator

/-- A directory fills its place in what the words say, whichever place that is. -/
theorem readWords_directoryWords {name : CommandName} {s : Switch} {given : Option String}
    (fill : Option String → Given) (rest : List String) (hs : s ∈ name.switches)
    (hvalue : s.takesValue = true) (hgiven : ∀ w ∈ given, IsOperand w)
    (hfill : ∀ w, Given.assign { fill none with rootIsLast := false } s w =
      .ok { fill (some w) with rootIsLast := false }) :
    ∃ last, readWords name.switches (fill none) (directoryWords s given ++ rest) =
      readWords name.switches { fill given with rootIsLast := last } rest := by
  cases given with
  | none => exact ⟨(fill none).rootIsLast, rfl⟩
  | some w =>
    exact ⟨false, readWords_assign (classify_longName hs) (longName_ne_separator s) hvalue
      (hgiven w rfl name) (hgiven w rfl).ne_separator (hfill w)⟩

theorem readWords_tests {name : CommandName} (g : Given) (excludeTests : Option Bool)
    (hexclude : .excludeTests ∈ name.switches) (hinclude : .includeTests ∈ name.switches)
    (hg : g.excludeTests = none) :
    ∃ last, readWords name.switches g (testsWords excludeTests) =
      .ok { g with excludeTests := excludeTests, rootIsLast := last } := by
  rcases excludeTests with _ | _ | _
  · cases g
    cases hg
    exact ⟨_, rfl⟩
  · refine ⟨false, readWords_flip (classify_longName hinclude) (longName_ne_separator _) rfl ?_⟩
    simp [Given.flip, hg]
  · refine ⟨false, readWords_flip (classify_longName hexclude) (longName_ne_separator _) rfl ?_⟩
    simp [Given.flip, hg]

/-! ## The four requests -/

variable {root : String} {output directory : Option String} {excludeTests : Option Bool}

theorem isOperand_command {name : CommandName} (word : String)
    (hword : CommandName.ofWord? word = some name) :
    IsOperand word ∧ classify programSwitches word = .argument := by
  unfold CommandName.ofWord? at hword
  refine ⟨?_, ?_⟩
  · intro own
    split at hword
    all_goals cases own <;> first | decide +kernel | cases hword
  · split at hword
    all_goals first | decide +kernel | cases hword

theorem parse_stamp (hroot : IsOperand root) (houtput : ∀ w ∈ output, IsOperand w) :
    parse ("stamp" :: root :: (directoryWords .outputDirectory output ++ testsWords excludeTests)) =
      .ok ⟨false, root, .stamp output excludeTests⟩ := by
  have hs : .outputDirectory ∈ CommandName.stamp.switches := by decide
  have hexclude : .excludeTests ∈ CommandName.stamp.switches := by decide
  have hinclude : .includeTests ∈ CommandName.stamp.switches := by decide
  obtain ⟨hword, hargument⟩ := isOperand_command "stamp" rfl
  have hwords : ∀ w ∈ root :: (directoryWords .outputDirectory output ++ testsWords excludeTests),
      HasMeaning .stamp w := by
    intro w hw
    rcases List.mem_cons.mp hw with rfl | hw
    · exact Or.inl hroot
    rcases List.mem_append.mp hw with hw | hw
    · exact hasMeaning_of_mem_directoryWords hs houtput w hw
    · exact hasMeaning_of_mem_testsWords hexclude hinclude w hw
  obtain ⟨last, hout⟩ := readWords_directoryWords
    (fun output => { root := some root, rootIsLast := true, output := output })
    (testsWords excludeTests) hs rfl houtput fun _ => rfl
  obtain ⟨last', htests⟩ := readWords_tests
    { root := some root, rootIsLast := last, output := output } excludeTests hexclude hinclude rfl
  exact parse_command rfl hword hargument hwords
    ((readWords_root hroot).trans (hout.trans htests)) rfl

theorem parse_show (hroot : IsOperand root) (hdirectory : ∀ w ∈ directory, IsOperand w) :
    parse ("show" :: root :: directoryWords .artifactsDirectory directory) =
      .ok ⟨false, root, .display directory none⟩ := by
  have hs : .artifactsDirectory ∈ CommandName.display.switches := by decide
  obtain ⟨hword, hargument⟩ := isOperand_command "show" rfl
  have hwords : ∀ w ∈ root :: directoryWords .artifactsDirectory directory,
      HasMeaning .display w := by
    intro w hw
    rcases List.mem_cons.mp hw with rfl | hw
    · exact Or.inl hroot
    · exact hasMeaning_of_mem_directoryWords hs hdirectory w hw
  obtain ⟨last, hread⟩ := readWords_directoryWords
    (fun directory => { root := some root, rootIsLast := true, directory := directory }) [] hs rfl
    hdirectory fun _ => rfl
  rw [List.append_nil] at hread
  exact parse_command rfl hword hargument hwords ((readWords_root hroot).trans hread) rfl

theorem parse_validate (hroot : IsOperand root) (hdirectory : ∀ w ∈ directory, IsOperand w) :
    parse ("validate" :: root :: Switch.strictSchemaVersion.longName ::
        directoryWords .artifactsDirectory directory) =
      .ok ⟨false, root, .validate directory true⟩ := by
  have hs : .artifactsDirectory ∈ CommandName.validate.switches := by decide
  have hstrict : .strictSchemaVersion ∈ CommandName.validate.switches := by decide
  obtain ⟨hword, hargument⟩ := isOperand_command "validate" rfl
  have hwords : ∀ w ∈ root :: Switch.strictSchemaVersion.longName ::
      directoryWords .artifactsDirectory directory, HasMeaning .validate w := by
    intro w hw
    rcases List.mem_cons.mp hw with rfl | hw
    · exact Or.inl hroot
    rcases List.mem_cons.mp hw with rfl | hw
    · exact Or.inr ⟨_, hstrict, rfl⟩
    · exact hasMeaning_of_mem_directoryWords hs hdirectory w hw
  have hflip : readWords CommandName.validate.switches { root := some root, rootIsLast := true }
      (Switch.strictSchemaVersion.longName :: directoryWords .artifactsDirectory directory) =
        readWords CommandName.validate.switches { root := some root, strict := true }
          (directoryWords .artifactsDirectory directory) :=
    readWords_flip (classify_longName hstrict) (longName_ne_separator _) rfl rfl
  obtain ⟨last, hread⟩ := readWords_directoryWords
    (fun directory => { root := some root, strict := true, directory := directory }) [] hs rfl
    hdirectory fun _ => rfl
  rw [List.append_nil] at hread
  exact parse_command rfl hword hargument hwords
    ((readWords_root hroot).trans (hflip.trans hread)) rfl

theorem parse_verify (hroot : IsOperand root) (hdirectory : ∀ w ∈ directory, IsOperand w) :
    parse ("verify" :: root ::
        (directoryWords .artifactsDirectory directory ++ testsWords excludeTests)) =
      .ok ⟨false, root, .verify directory excludeTests⟩ := by
  have hs : .artifactsDirectory ∈ CommandName.verify.switches := by decide
  have hexclude : .excludeTests ∈ CommandName.verify.switches := by decide
  have hinclude : .includeTests ∈ CommandName.verify.switches := by decide
  obtain ⟨hword, hargument⟩ := isOperand_command "verify" rfl
  have hwords : ∀ w ∈ root ::
      (directoryWords .artifactsDirectory directory ++ testsWords excludeTests),
      HasMeaning .verify w := by
    intro w hw
    rcases List.mem_cons.mp hw with rfl | hw
    · exact Or.inl hroot
    rcases List.mem_append.mp hw with hw | hw
    · exact hasMeaning_of_mem_directoryWords hs hdirectory w hw
    · exact hasMeaning_of_mem_testsWords hexclude hinclude w hw
  obtain ⟨last, hout⟩ := readWords_directoryWords
    (fun directory => { root := some root, rootIsLast := true, directory := directory })
    (testsWords excludeTests) hs rfl hdirectory fun _ => rfl
  obtain ⟨last', htests⟩ := readWords_tests
    { root := some root, rootIsLast := last, directory := directory } excludeTests hexclude hinclude
    rfl
  exact parse_command rfl hword hargument hwords
    ((readWords_root hroot).trans (hout.trans htests)) rfl

end ArtifactIdentity.CommandLine
