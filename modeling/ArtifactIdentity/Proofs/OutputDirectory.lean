import ArtifactIdentity.Proofs.Files.Circles
import ArtifactIdentity.Proofs.Stamping

/-!
# The output directory of an artifact

An output directory is accepted where its path is relative, resolves to a location and resolves within the
resolved root; the location that is handed on is the one that the path resolves to, and a walk along it cannot
leave the root. How the path gets there does not matter: it may go up, and go through links, and come back.
A path that goes in circles resolves to nothing, but is accepted all the same where the names read as they are
written stay within the root. Then nothing is known of the links on the location that is handed on.

What is not accepted is refused as a configuration, if the root and the path can be resolved. Where one of them
cannot, for circles or for the character NUL, that failure itself comes out. Neither how deep links may be nested
nor how long a path may be is limited here: a way without an end, which only a relative root can take, is a
failure of its own.
-/

namespace ArtifactIdentity.Machine

open FileTree

variable {m : Machine} {root : Pathname} {top out : Location} {output : String}

/-- The text of an output directory as it has to be: relative, and not in the home of a user. -/
structure IsRelative (output : String) : Prop where
  nonempty : output ≠ ""
  tilde : output.toList.head? ≠ some '~'
  slash : Pathname.startsAtRoot output = false

/-- The path of an output directory within the resolved root. -/
def outputPath (top : Location) (output : String) : Pathname :=
  .ofLocation top ++ .ofString output

/-- A path below a location is one from the root. -/
theorem absolute_outputPath (top : Location) (output : String) : (outputPath top output).absolute = true := by
  simp only [outputPath, HAppend.hAppend, Append.append, Pathname.append]
  split
  · assumption
  · rfl

/-- An output directory is accepted where it is relative and resolved within the resolved root. -/
theorem resolveOutput_eq_ok_iff :
    m.resolveOutput root output = .ok out ↔
      IsRelative output ∧ ∃ top, m.resolve root = .ok top ∧ m.resolve (outputPath top output) = .ok out ∧
        out.Within top := by
  unfold resolveOutput outputPath
  constructor
  · intro h
    split at h
    · cases h
    rename_i hnonempty
    split at h
    · cases h
    rename_i hrelative
    simp only [Bool.or_eq_true, decide_eq_true_eq, not_or, Bool.not_eq_true] at hrelative
    refine ⟨⟨hnonempty, hrelative.1, hrelative.2⟩, ?_⟩
    cases htop : m.resolve root with
    | error e =>
      simp only [resolved, htop] at h
      cases h
    | ok top =>
      cases hout : m.resolve (.ofLocation top ++ .ofString output) with
      | error e =>
        simp only [resolved, htop, bind, Except.bind, hout] at h
        cases h
      | ok found =>
        simp only [resolved, htop, bind, Except.bind, hout] at h
        split at h
        · rename_i hinside
          obtain rfl := Except.ok.inj h
          exact ⟨top, rfl, hout, hinside⟩
        · cases h
  · rintro ⟨hrelative, top, htop, hout, hinside⟩
    simp only [hrelative.nonempty, hrelative.tilde, hrelative.slash, resolved, htop, hout, hinside, decide_false, Bool.or_self, Bool.false_eq_true, if_false,
      if_true, bind, Except.bind]

/-- What lies below a location that is written with one slash is written so itself. -/
theorem within_of_prefix (h : top <+: out) (hout : out.isDoubled = false) : out.Within top := by
  refine ⟨h, ?_⟩
  obtain ⟨rest, rfl⟩ := h
  cases top with
  | nil => exact hout
  | cons name names => rfl

/-- **An output directory that is accepted is relative, and lies within the resolved root. It is what its path
resolves to, no link stands on it or above it, and whatever is opened there is opened there and nowhere else,
unless the path goes in circles and resolves to nothing. In turn every relative output directory that resolves
within the resolved root is accepted as that location.** -/
theorem resolveOutput_accepts_inside (m : Machine) (root : Pathname) (output : String) :
    (∀ out, m.resolveOutput root output = .ok out →
      IsRelative output ∧ ∃ top, m.resolve root = .ok top ∧ out.Within top ∧
        ((m.ResolvesTo (outputPath top output) out ∧
            (∀ above, above <+: out → ∀ target, m.tree.get? above ≠ some (.link target)) ∧
            ∀ followLast place, m.locate followLast (.ofLocation out) = .ok place → place.location = out) ∨
          m.Loops (outputPath top output) ∧ ∀ last, ¬ m.ResolvesTo (outputPath top output) last)) ∧
      ∀ top out, IsRelative output → m.resolve root = .ok top →
        (m.ResolvesTo (outputPath top output) out ∧ top <+: out ∨
          m.resolve (outputPath top output) = .ok out ∧ out.Within top) →
          m.resolveOutput root output = .ok out := by
  constructor
  · intro out hout
    obtain ⟨hrelative, top, htop, hresolve, hinside⟩ := resolveOutput_eq_ok_iff.mp hout
    refine ⟨hrelative, top, htop, hinside, ?_⟩
    rcases resolvesTo_or_loops hresolve with hresolves | hcircles
    · left
      have hstraight : m.tree.Straight out :=
        straight_of_resolve (absolute_outputPath top output) hresolves.not_loops hresolve
      exact ⟨hresolves, hstraight.links, fun followLast place hplace => location_of_locate hplace hstraight⟩
    · exact Or.inr hcircles
  · rintro top out hrelative htop (⟨hresolves, hinside⟩ | ⟨hresolve, hinside⟩)
    · have hresolve := hresolves.resolve
      have hstraight : m.tree.Straight out :=
        straight_of_resolve (absolute_outputPath top output) hresolves.not_loops hresolve
      exact resolveOutput_eq_ok_iff.mpr
        ⟨hrelative, top, htop, hresolve, within_of_prefix hinside hstraight.isDoubled_eq_false⟩
    · exact resolveOutput_eq_ok_iff.mpr ⟨hrelative, top, htop, hresolve, hinside⟩

/-- An artifact with a link out of it and, behind that, a link back into it. -/
def returningSample : Machine :=
  sample
    [(["art", "exit"], .link "../away"), (["art", "deep"], .directory), (["away"], .directory),
      (["away", "home"], .link "/art/./deep")]

/-- A path that leaves the artifact and comes back is accepted as the location in the artifact that it resolves
to. -/
theorem resolveOutput_accepts_returning :
    returningSample.resolveOutput ⟨true, ["art"]⟩ "exit/home//../new" = .ok ["art", "new"] ∧
      returningSample.ResolvesTo (outputPath ["art"] "exit/home//../new") ["art", "new"] := by
  have htop : returningSample.resolve ⟨true, ["art"]⟩ = .ok ["art"] := rfl
  have hrelative : IsRelative "exit/home//../new" := ⟨by decide, by decide, by decide⟩
  have hresolves : returningSample.ResolvesTo (outputPath ["art"] "exit/home//../new") ["art", "new"] := by
    decide +kernel
  obtain ⟨-, haccepts⟩ := resolveOutput_accepts_inside returningSample ⟨true, ["art"]⟩ "exit/home//../new"
  exact ⟨haccepts _ _ hrelative htop (Or.inl ⟨hresolves, ["new"], rfl⟩), hresolves⟩

/-- An artifact with a link to itself and a link out of it. -/
def circleSample : Machine :=
  sample [(["art", "loop"], .link "loop"), (["art", "x"], .link "../away"), (["away"], .directory)]

/-- A path that goes in circles is accepted as a location that is a link out of the root. It is not what the
path resolves to, which is nothing, and opening it leaves the root. -/
theorem resolveOutput_accepts_circle :
    circleSample.resolveOutput ⟨true, ["art"]⟩ "loop/../x" = .ok ["art", "x"] ∧
      (∀ last, ¬ circleSample.ResolvesTo (outputPath ["art"] "loop/../x") last) ∧
      circleSample.tree.get? ["art", "x"] = some (.link "../away") ∧
      circleSample.locate true (.ofLocation ["art", "x"]) = .ok (.found ["away"] .directory) ∧
      ¬ ["art"] <+: ["away"] := by
  have hlooped : circleSample.expansion (outputPath ["art"] "loop/../x") = .looped "/art/loop/../x" := by
    decide +kernel
  refine ⟨eq_ok_of_toOption (by decide +kernel), ?_, rfl, rfl, by decide⟩
  intro last hlast
  exact hlast.not_loops ⟨_, hlooped⟩

/-! ## What is not accepted -/

/-- The ways in which an output directory is refused as a configuration. -/
inductive OutputRefused (m : Machine) (root : Pathname) (output : String) : ConfigError → Prop
  | empty (h : output = "") : OutputRefused m root output .noOutput
  | notRelative (hnonempty : output ≠ "") (h : ¬ IsRelative output) :
      OutputRefused m root output .outputNotRelative
  | escapes (top out : Location) (hrelative : IsRelative output) (htop : m.resolve root = .ok top)
      (hout : m.resolve (outputPath top output) = .ok out) (houtside : ¬ out.Within top) :
      OutputRefused m root output (.outputEscapes output)

/-- The root of an artifact, or the path of its output directory within the root, is not resolved. -/
inductive OutputUnresolved (m : Machine) (root : Pathname) (output : String) (e : FileError) : Prop
  | root (hrelative : IsRelative output) (h : m.Unresolved root e)
  | path (top : Location) (hrelative : IsRelative output) (htop : m.resolve root = .ok top)
      (h : m.Unresolved (outputPath top output) e)

theorem resolveOutput_of_not_isRelative (hnonempty : output ≠ "") (h : ¬ IsRelative output) :
    m.resolveOutput root output = .error (.config .outputNotRelative) := by
  have hgate : (decide (output.toList.head? = some '~') || Pathname.startsAtRoot output) = true := by
    by_contra hneither
    simp only [Bool.or_eq_true, decide_eq_true_eq, not_or, Bool.not_eq_true] at hneither
    exact h ⟨hnonempty, hneither.1, hneither.2⟩
  rw [resolveOutput, if_neg hnonempty, if_pos hgate]

theorem resolveOutput_of_isRelative (h : IsRelative output) :
    m.resolveOutput root output =
      (m.resolved root).bind fun top => (m.resolved (outputPath top output)).bind fun out =>
        if out.Within top then .ok out else .error (.config (.outputEscapes output)) := by
  simp only [resolveOutput, h.nonempty, h.tilde, h.slash, decide_false, Bool.or_self, Bool.false_eq_true,
    if_false]
  rfl

theorem resolved_of_ok (h : m.resolve root = .ok top) : m.resolved root = .ok top := by
  rw [resolved, h]

theorem resolved_of_unresolved {p : Pathname} {e : FileError} (h : m.Unresolved p e) :
    m.resolved p = .error (.file e) := by
  rw [resolved, resolve_eq_error_iff.mpr h]

theorem OutputRefused.resolveOutput {e : ConfigError} (h : m.OutputRefused root output e) :
    m.resolveOutput root output = .error (.config e) := by
  cases h with
  | empty h => rw [Machine.resolveOutput, if_pos h]
  | notRelative hnonempty h => exact resolveOutput_of_not_isRelative hnonempty h
  | escapes top out hrelative htop hout houtside =>
    rw [resolveOutput_of_isRelative hrelative, resolved_of_ok htop, Except.bind, resolved_of_ok hout,
      Except.bind, if_neg houtside]

theorem OutputUnresolved.resolveOutput {e : FileError} (h : m.OutputUnresolved root output e) :
    m.resolveOutput root output = .error (.file e) := by
  cases h with
  | root hrelative h =>
    rw [resolveOutput_of_isRelative hrelative, resolved_of_unresolved h]
    rfl
  | path top hrelative htop h =>
    rw [resolveOutput_of_isRelative hrelative, resolved_of_ok htop, Except.bind, resolved_of_unresolved h]
    rfl

/-- An output directory is accepted or refused, or a path is not resolved. -/
theorem resolveOutput_cases (m : Machine) (root : Pathname) (output : String) :
    (∃ out, m.resolveOutput root output = .ok out) ∨ (∃ e, m.OutputRefused root output e) ∨
      ∃ e, m.OutputUnresolved root output e := by
  by_cases hempty : output = ""
  · exact Or.inr (Or.inl ⟨_, .empty hempty⟩)
  by_cases hrelative : IsRelative output
  · cases htop : m.resolve root with
    | error e => exact Or.inr (Or.inr ⟨e, .root hrelative (resolve_eq_error_iff.mp htop)⟩)
    | ok top =>
      cases hout : m.resolve (outputPath top output) with
      | error e => exact Or.inr (Or.inr ⟨e, .path top hrelative htop (resolve_eq_error_iff.mp hout)⟩)
      | ok out =>
        by_cases hinside : out.Within top
        · exact Or.inl ⟨out, resolveOutput_eq_ok_iff.mpr ⟨hrelative, top, htop, hout, hinside⟩⟩
        · exact Or.inr (Or.inl ⟨_, .escapes top out hrelative htop hout hinside⟩)
  · exact Or.inr (Or.inl ⟨_, .notRelative hempty hrelative⟩)

theorem resolveOutput_eq_config_iff {e : ConfigError} :
    m.resolveOutput root output = .error (.config e) ↔ m.OutputRefused root output e := by
  constructor
  · intro h
    rcases resolveOutput_cases m root output with ⟨out, hout⟩ | ⟨e', hrefused⟩ | ⟨e', hunresolved⟩
    · cases hout.symm.trans h
    · obtain rfl := Failure.config.inj (Except.error.inj (hrefused.resolveOutput.symm.trans h))
      exact hrefused
    · cases hunresolved.resolveOutput.symm.trans h
  · intro h
    exact h.resolveOutput

theorem resolveOutput_eq_file_iff {e : FileError} :
    m.resolveOutput root output = .error (.file e) ↔ m.OutputUnresolved root output e := by
  constructor
  · intro h
    rcases resolveOutput_cases m root output with ⟨out, hout⟩ | ⟨e', hrefused⟩ | ⟨e', hunresolved⟩
    · cases hout.symm.trans h
    · cases hrefused.resolveOutput.symm.trans h
    · obtain rfl := Failure.file.inj (Except.error.inj (hunresolved.resolveOutput.symm.trans h))
      exact hunresolved
  · intro h
    exact h.resolveOutput

/-- A path is not resolved for circles or for the character NUL. Without an end only a relative root leads on. -/
theorem OutputUnresolved.cases {e : FileError} (h : m.OutputUnresolved root output e) :
    e = .linkLoop ∨ e = .embeddedNul ∨ e = .endlessLinks ∧ root.absolute = false := by
  have hpath {p : Pathname} (hp : m.Unresolved p e) :
      e = .linkLoop ∨ e = .embeddedNul ∨ e = .endlessLinks ∧ p.absolute = false := by
    cases hp with
    | circle => exact Or.inl rfl
    | endless hendless =>
      refine Or.inr (Or.inr ⟨rfl, ?_⟩)
      rw [← Bool.not_eq_true]
      exact fun habsolute => not_endless_of_absolute habsolute hendless
    | nul | written => exact Or.inr (Or.inl rfl)
  cases h with
  | root _ h => exact hpath h
  | path top _ _ h =>
    rcases hpath h with hloop | hnul | ⟨-, hrelative⟩
    · exact Or.inl hloop
    · exact Or.inr (Or.inl hnul)
    · rw [absolute_outputPath] at hrelative
      cases hrelative

/-- **An output directory is accepted, or refused as a configuration, or the root or its path in the root is not
resolved; then circles or the character NUL are the failure, or, for a relative root alone, links that lead on
without an end, and no other failure comes out. It is refused just where it is empty, not relative, or resolved
outside the resolved root.** -/
theorem resolveOutput_ends (m : Machine) (root : Pathname) (output : String) :
    ((∃ out, m.resolveOutput root output = .ok out) ∨
        (∃ e, m.resolveOutput root output = .error (.config e)) ∨
        m.resolveOutput root output = .error (.file .linkLoop) ∨
        m.resolveOutput root output = .error (.file .embeddedNul) ∨
        m.resolveOutput root output = .error (.file .endlessLinks) ∧ root.absolute = false) ∧
      (∀ e, m.resolveOutput root output = .error (.config e) ↔ m.OutputRefused root output e) ∧
      ∀ e, m.resolveOutput root output = .error (.file e) ↔ m.OutputUnresolved root output e := by
  refine ⟨?_, fun e => resolveOutput_eq_config_iff, fun e => resolveOutput_eq_file_iff⟩
  rcases resolveOutput_cases m root output with hok | ⟨e, hrefused⟩ | ⟨e, hunresolved⟩
  · exact Or.inl hok
  · exact Or.inr (Or.inl ⟨e, hrefused.resolveOutput⟩)
  · have hfailed := hunresolved.resolveOutput
    rcases hunresolved.cases with rfl | rfl | ⟨rfl, hrelative⟩
    · exact Or.inr (Or.inr (Or.inl hfailed))
    · exact Or.inr (Or.inr (Or.inr (Or.inl hfailed)))
    · exact Or.inr (Or.inr (Or.inr (Or.inr ⟨hfailed, hrelative⟩)))

/-- A link to itself and a name that holds the character NUL are neither accepted nor refused as a
configuration. -/
theorem resolveOutput_fails_otherwise :
    circleSample.resolveOutput ⟨true, ["art"]⟩ "loop" = .error (.file .linkLoop) ∧
      circleSample.resolveOutput ⟨true, ["art"]⟩ "a\x00b" = .error (.file .embeddedNul) := by
  have htop : circleSample.resolve ⟨true, ["art"]⟩ = .ok ["art"] := rfl
  constructor
  · have hread : circleSample.ReadAs (outputPath ["art"] "loop") ["art", "loop"] :=
      ⟨"/art/loop/", by decide +kernel, by decide +kernel⟩
    have hwalk : circleSample.locate true (.ofLocation ["art", "loop"]) = .error .tooManyLinks := rfl
    exact resolveOutput_eq_file_iff.mpr (.path _ ⟨by decide, by decide, by decide⟩ htop (.circle _ hread hwalk))
  · have hnul : circleSample.ReachesNul (outputPath ["art"] "a\x00b") :=
      reachesNul_iff.mpr (by decide +kernel)
    exact resolveOutput_eq_file_iff.mpr (.path _ ⟨by decide, by decide, by decide⟩ htop (.nul hnul))

end ArtifactIdentity.Machine
