import ArtifactIdentity.Proofs.Toml.Values
import Mathlib.Data.List.Infix

/-!
# The flaws of TOML scalars

Reading goes from the front of a text: what is read leaves an end of the text, and what ends the reading is a
flaw of the text. There are two kinds of flaws. A text breaks a rule of the language, or it holds a decimal
integer of more digits than are read as an integer, and the flaw tells how many digits there are. Here this is
shown of all readers below that of a value: gaps and comments, strings, dates and times, numbers and keys.
-/

namespace ArtifactIdentity.Toml

open Text

/-! ## Flaws -/

/-- A text holds a decimal integer of a number of digits, with underscores between them perhaps. -/
def HoldsDecimal (cs : List Char) (digits : Nat) : Prop :=
  ∃ run, run <:+: cs ∧ (∀ c ∈ run, isDigit c = true ∨ c = '_') ∧ (run.filter isDigit).length = digits

/-- What can be wrong with a text. -/
inductive IsFlawOf (cs : List Char) : Flaw → Prop
  | malformed : IsFlawOf cs .malformed
  | digits {n : Nat} (hlong : Version.maxDigits < n) (h : HoldsDecimal cs n) : IsFlawOf cs (.digits (.reading n))

variable {cs cs' rest : List Char} {flaw : Flaw} {n : Nat}

theorem HoldsDecimal.behind (h : HoldsDecimal cs' n) (hcs : cs' <:+: cs) : HoldsDecimal cs n := by
  rcases h with ⟨run, hrun, hmarks, hcount⟩
  exact ⟨run, hrun.trans hcs, hmarks, hcount⟩

theorem IsFlawOf.behind (h : IsFlawOf cs' flaw) (hcs : cs' <:+: cs) : IsFlawOf cs flaw := by
  cases h with
  | malformed => exact .malformed
  | digits hlong h => exact .digits hlong (h.behind hcs)

/-! ## Reading from the front -/

/-- What is read from the front of a text leaves an end of the text, or there is a flaw of the text. -/
def ReadsFrom {α : Type} (left : α → List Char) (cs : List Char) : Except Flaw α → Prop
  | .ok a => left a <:+ cs
  | .error flaw => IsFlawOf cs flaw

namespace ReadsFrom

variable {α β : Type} {left : α → List Char} {left' : β → List Char} {scan : Except Flaw α}

theorem behind (h : ReadsFrom left cs' scan) (hcs : cs' <:+ cs) : ReadsFrom left cs scan := by
  cases scan with
  | ok a => exact List.IsSuffix.trans h hcs
  | error flaw => exact IsFlawOf.behind h hcs.isInfix

theorem malformed : ReadsFrom left cs Toml.malformed :=
  IsFlawOf.malformed

theorem map {f : α → β} (h : ReadsFrom left cs scan) (hf : ∀ a, left' (f a) <:+ left a) :
    ReadsFrom left' cs (scan.map f) := by
  cases scan with
  | ok a => exact (hf a).trans h
  | error flaw => exact h

/-- Reading goes on with what is left. -/
theorem bind {next : α → Except Flaw β} (h : ReadsFrom left cs scan)
    (hnext : ∀ a, ReadsFrom left' (left a) (next a)) : ReadsFrom left' cs (scan >>= next) := by
  cases scan with
  | ok a => exact (hnext a).behind h
  | error flaw => exact h

/-- A step that reads nothing breaks a rule where it fails. -/
theorem after {γ : Type} {x : Except Flaw γ} {next : γ → Except Flaw β}
    (hx : ∀ flaw, x = .error flaw → flaw = .malformed) (hnext : ∀ c, ReadsFrom left' cs (next c)) :
    ReadsFrom left' cs (x >>= next) := by
  cases x with
  | ok c => exact hnext c
  | error flaw =>
    rw [hx flaw rfl]
    exact .malformed

end ReadsFrom

/-! ## Gaps and strings -/

theorem suffix_cons_of {c : Char} (h : rest <:+ cs) : rest <:+ c :: cs :=
  h.trans (List.suffix_cons c cs)

theorem suffix_skipGap (cs : List Char) : skipGap cs <:+ cs :=
  List.dropWhile_suffix _

theorem readsFrom_skipLines (comment : Bool) (cs : List Char) : ReadsFrom id cs (skipLines comment cs) := by
  fun_induction skipLines comment cs with
  | case1 => exact List.suffix_rfl
  | case2 _ rest ih => exact ih.behind (List.suffix_cons _ _)
  | case3 => exact .malformed
  | case4 c rest _ _ ih => exact ih.behind (List.suffix_cons _ _)
  | case5 _ c rest _ _ _ ih => exact ih.behind (List.suffix_cons _ _)
  | case6 _ rest _ _ _ ih => exact ih.behind (List.suffix_cons _ _)
  | case7 => exact List.suffix_rfl

theorem readsFrom_skipComment (cs : List Char) : ReadsFrom id cs (skipComment cs) := by
  unfold skipComment
  split
  · split
    · exact .malformed
    · exact suffix_cons_of (List.dropWhile_suffix _)
  · exact List.suffix_rfl

theorem ReadsFrom.consChar {c : Char} {scan : Scan (List Char)} (h : ReadsFrom Prod.snd cs scan) :
    ReadsFrom Prod.snd cs (Toml.consChar c scan) :=
  h.map fun _ => List.suffix_rfl

theorem readsFrom_scanPlainText (cs : List Char) : ReadsFrom Prod.snd cs (scanPlainText cs) := by
  fun_induction scanPlainText cs with
  | case1 => exact .malformed
  | case2 rest => exact List.suffix_cons _ _
  | case3 => exact .malformed
  | case4 c rest _ _ ih => exact ih.consChar.behind (List.suffix_cons _ _)

theorem readsFrom_scanText (cs : List Char) : ReadsFrom Prod.snd cs (scanText cs) := by
  fun_induction scanText cs with
  | case1 | case4 | case6 | case8 | case9 => exact .malformed
  | case2 rest => exact List.suffix_cons _ _
  | case3 a b c d rest _ _ ih =>
    exact ih.consChar.behind (List.suffix_append ['\\', 'u', a, b, c, d] rest)
  | case5 a b c d e f g h rest _ _ ih =>
    exact ih.consChar.behind (List.suffix_append ['\\', 'U', a, b, c, d, e, f, g, h] rest)
  | case7 letter rest _ _ _ _ ih => exact ih.consChar.behind (List.suffix_append ['\\', letter] rest)
  | case10 c rest _ _ _ _ _ ih => exact ih.consChar.behind (List.suffix_cons _ _)

theorem suffix_closing (quote : Char) (cs : List Char) : (closing quote cs).2 <:+ cs := by
  fun_cases closing quote cs with
  | case1 | case5 | case6 => exact List.suffix_rfl
  | case2 => exact List.suffix_cons _ _
  | case3 => exact List.suffix_append [_, _] _
  | case4 => exact List.nil_suffix

theorem readsFrom_scanPlainLines (cs : List Char) : ReadsFrom Prod.snd cs (scanPlainLines cs) := by
  fun_induction scanPlainLines cs with
  | case1 | case3 => exact .malformed
  | case2 rest => exact (suffix_closing _ rest).trans (List.suffix_append ['\'', '\'', '\''] rest)
  | case4 c rest _ _ ih => exact ih.consChar.behind (List.suffix_cons _ _)

theorem readsFrom_scanLines (folding : Folding) (cs : List Char) :
    ReadsFrom Prod.snd cs (scanLines folding cs) := by
  fun_induction scanLines folding cs with
  | case1 | case4 | case7 | case9 | case13 | case15 => exact .malformed
  | case2 c rest _ ih => exact ih.behind (List.suffix_cons _ _)
  | case3 rest _ ih => exact ih.behind (List.suffix_cons _ _)
  | case5 _ rest => exact (suffix_closing _ rest).trans (List.suffix_append ['"', '"', '"'] rest)
  | case6 _ a b c d rest _ _ _ ih =>
    exact ih.consChar.behind (List.suffix_append ['\\', 'u', a, b, c, d] rest)
  | case8 _ a b c d e f g h rest _ _ _ ih =>
    exact ih.consChar.behind (List.suffix_append ['\\', 'U', a, b, c, d, e, f, g, h] rest)
  | case10 _ letter rest _ _ _ _ ih => exact ih.behind (List.suffix_append ['\\', letter] rest)
  | case11 _ rest _ _ _ _ ih => exact ih.behind (List.suffix_append ['\\', '\n'] rest)
  | case12 _ letter rest _ _ _ _ _ _ _ ih =>
    exact ih.consChar.behind (List.suffix_append ['\\', letter] rest)
  | case14 _ c rest _ _ _ _ _ _ ih => exact ih.behind (List.suffix_cons _ _)
  | case16 _ c rest _ _ _ _ _ _ _ ih => exact ih.consChar.behind (List.suffix_cons _ _)

theorem suffix_skipLineBreak (cs : List Char) : skipLineBreak cs <:+ cs := by
  unfold skipLineBreak
  split
  · exact List.suffix_cons _ _
  · exact List.suffix_rfl

theorem readsFrom_scanAnyText {scan : Scan (List Char)} (h : scanAnyText cs = some scan) :
    ReadsFrom Prod.snd cs scan := by
  unfold scanAnyText at h
  split at h
  · rename_i rest
    obtain rfl := Option.some.inj h
    exact (readsFrom_scanLines .none _).behind
      ((suffix_skipLineBreak rest).trans (List.suffix_append ['"', '"', '"'] rest))
  · rename_i rest _
    obtain rfl := Option.some.inj h
    exact (readsFrom_scanText rest).behind (List.suffix_cons _ _)
  · rename_i rest
    obtain rfl := Option.some.inj h
    exact (readsFrom_scanPlainLines _).behind
      ((suffix_skipLineBreak rest).trans (List.suffix_append ['\'', '\'', '\''] rest))
  · rename_i rest _
    obtain rfl := Option.some.inj h
    exact (readsFrom_scanPlainText rest).behind (List.suffix_cons _ _)
  · cases h

/-! ## Dates and times -/

theorem suffix_of_scanTwo {low high k : Nat} (h : scanTwo low high cs = some (k, rest)) : rest <:+ cs := by
  unfold scanTwo at h
  split at h
  · rename_i a b _
    split at h
    · simp only [Option.ite_none_right_eq_some, Option.some.injEq, Prod.mk.injEq] at h
      rcases h with ⟨-, -, rfl⟩
      exact List.suffix_append [a, b] _
    · cases h
  · cases h

theorem suffix_of_expect {c : Char} (h : expect c cs = some rest) : rest <:+ cs := by
  unfold expect at h
  split at h
  · split at h
    · obtain rfl := Option.some.inj h
      exact List.suffix_cons _ _
    · cases h
  · cases h

theorem suffix_scanMicroseconds (cs : List Char) : (scanMicroseconds cs).2 <:+ cs := by
  unfold scanMicroseconds
  split
  · split
    · exact List.suffix_rfl
    · exact suffix_cons_of (List.dropWhile_suffix _)
  · exact List.suffix_rfl

theorem suffix_of_scanTime {time : TimeOfDay} (h : scanTime cs = some (time, rest)) : rest <:+ cs := by
  simp only [scanTime, bind, pure, Option.bind_eq_some_iff, Option.some.injEq, Prod.mk.injEq] at h
  rcases h with ⟨⟨hour, cs₁⟩, h₁, cs₂, h₂, ⟨minute, cs₃⟩, h₃, cs₄, h₄, ⟨second, cs₅⟩, h₅, -, rfl⟩
  calc (scanMicroseconds cs₅).2
      <:+ cs₅ := suffix_scanMicroseconds cs₅
    _ <:+ cs₄ := suffix_of_scanTwo h₅
    _ <:+ cs₃ := suffix_of_expect h₄
    _ <:+ cs₂ := suffix_of_scanTwo h₃
    _ <:+ cs₁ := suffix_of_expect h₂
    _ <:+ cs := suffix_of_scanTwo h₁

theorem suffix_of_scanDate {date : Date} (h : scanDate cs = some (date, rest)) : rest <:+ cs := by
  simp only [scanDate, bind, pure, Option.bind_eq_some_iff, Option.some.injEq, Prod.mk.injEq] at h
  rcases h with ⟨⟨century, cs₁⟩, h₁, ⟨year, cs₂⟩, h₂, cs₃, h₃, ⟨month, cs₄⟩, h₄, cs₅, h₅, ⟨day, cs₆⟩, h₆, -, rfl⟩
  calc cs₆
      <:+ cs₅ := suffix_of_scanTwo h₆
    _ <:+ cs₄ := suffix_of_expect h₅
    _ <:+ cs₃ := suffix_of_scanTwo h₄
    _ <:+ cs₂ := suffix_of_expect h₃
    _ <:+ cs₁ := suffix_of_scanTwo h₂
    _ <:+ cs := suffix_of_scanTwo h₁

theorem suffix_of_scanHours {minutes : Nat} (h : scanHours cs = some (minutes, rest)) : rest <:+ cs := by
  simp only [scanHours, bind, pure, Option.bind_eq_some_iff, Option.some.injEq, Prod.mk.injEq] at h
  rcases h with ⟨⟨hours, cs₁⟩, h₁, cs₂, h₂, ⟨minute, cs₃⟩, h₃, -, rfl⟩
  calc cs₃
      <:+ cs₂ := suffix_of_scanTwo h₃
    _ <:+ cs₁ := suffix_of_expect h₂
    _ <:+ cs := suffix_of_scanTwo h₁

theorem suffix_scanOffset (cs : List Char) : (scanOffset cs).2 <:+ cs := by
  unfold scanOffset
  split
  · exact List.suffix_rfl
  · split
    · exact List.suffix_cons _ _
    · split
      · rename_i hhours _
        exact suffix_cons_of (suffix_of_scanHours hhours)
      · rename_i hhours _
        exact suffix_cons_of (suffix_of_scanHours hhours)
      · exact List.suffix_rfl

theorem suffix_scanBehindDate (date : Date) (cs : List Char) : (scanBehindDate date cs).2 <:+ cs := by
  unfold scanBehindDate
  split
  · exact List.suffix_rfl
  · split
    · rename_i htime
      exact suffix_cons_of ((suffix_scanOffset _).trans (suffix_of_scanTime htime))
    · exact List.suffix_rfl

theorem readsFrom_scanClock {scan : Scan Literal} (h : scanClock cs = some scan) :
    ReadsFrom Prod.snd cs scan := by
  unfold scanClock at h
  split at h
  · rename_i date behind hdate
    obtain rfl := Option.some.inj h
    split
    · exact (suffix_scanBehindDate date behind).trans (suffix_of_scanDate hdate)
    · exact .malformed
  · obtain ⟨⟨time, behind⟩, htime, rfl⟩ := Option.map_eq_some_iff.mp h
    exact suffix_of_scanTime htime

/-! ## Numbers -/

/-- What digits are read from is a run of them, perhaps with underscores. -/
theorem exists_run_of_spanMoreDigits {isDigit : Char → Bool} (hmark : isDigit '_' = false) (cs : List Char) :
    ∃ run, cs = run ++ (spanMoreDigits isDigit cs).2 ∧ (∀ c ∈ run, isDigit c = true ∨ c = '_') ∧
      run.filter isDigit = (spanMoreDigits isDigit cs).1 := by
  fun_induction spanMoreDigits isDigit cs with
  | case1 => exact ⟨[], rfl, by simp, rfl⟩
  | case2 c rest hc digits behind hspan ih =>
    rcases ih with ⟨run, hrun, hmarks, hdigits⟩
    rw [hspan] at hrun hdigits
    refine ⟨'_' :: c :: run, by rw [hrun]; rfl, ?_, ?_⟩
    · rw [List.forall_mem_cons, List.forall_mem_cons]
      exact ⟨Or.inr rfl, Or.inl hc, hmarks⟩
    · simp [hmark, hc, hdigits]
  | case3 => exact ⟨[], rfl, by simp, rfl⟩
  | case4 c rest _ hc digits behind hspan ih =>
    rcases ih with ⟨run, hrun, hmarks, hdigits⟩
    rw [hspan] at hrun hdigits
    refine ⟨c :: run, by rw [hrun]; rfl, ?_, by simp [hc, hdigits]⟩
    simp only [List.forall_mem_cons]
    exact ⟨Or.inl hc, hmarks⟩
  | case5 => exact ⟨[], rfl, by simp, rfl⟩

theorem exists_run_of_spanDigits {isDigit : Char → Bool} (hmark : isDigit '_' = false) (cs : List Char) :
    ∃ run, cs = run ++ (spanDigits isDigit cs).2 ∧ (∀ c ∈ run, isDigit c = true ∨ c = '_') ∧
      run.filter isDigit = (spanDigits isDigit cs).1 := by
  unfold spanDigits
  split
  · rename_i c rest
    split
    · rename_i hc
      rcases exists_run_of_spanMoreDigits hmark rest with ⟨run, hrun, hmarks, hdigits⟩
      refine ⟨c :: run, congrArg (c :: ·) hrun, ?_, by simp [hc, hdigits]⟩
      simp only [List.forall_mem_cons]
      exact ⟨Or.inl hc, hmarks⟩
    · exact ⟨[], rfl, by simp, rfl⟩
  · exact ⟨[], rfl, by simp, rfl⟩

theorem suffix_spanDigits {isDigit : Char → Bool} (hmark : isDigit '_' = false) (cs : List Char) :
    (spanDigits isDigit cs).2 <:+ cs := by
  rcases exists_run_of_spanDigits hmark cs with ⟨run, hrun, -, -⟩
  exact ⟨run, hrun.symm⟩

/-- An underscore may stand between digits and is none. -/
theorem isDigit_underscore : isDigit '_' = false := by
  decide

theorem isDigitOf_underscore (base : Nat) : isDigitOf base '_' = false := by
  have hno : isHexDigit '_' = false := by decide
  rw [isDigitOf, hno, Bool.false_and]

theorem suffix_of_scanBased {v : Literal} (h : scanBased cs = some (v, rest)) : rest <:+ cs := by
  unfold scanBased at h
  split at h
  · rename_i letter behind
    split at h
    · rename_i base _
      have hspan := suffix_spanDigits (isDigitOf_underscore base) behind
      split at h
      · cases h
      · rename_i hdigits
        obtain ⟨-, rfl⟩ := Prod.mk.inj (Option.some.inj h)
        rw [hdigits] at hspan
        exact hspan.trans (List.suffix_append ['0', letter] behind)
    · cases h
  · cases h

theorem suffix_scanSign (cs : List Char) : (scanSign cs).2 <:+ cs := by
  unfold scanSign
  split
  · exact List.suffix_cons _ _
  · exact List.suffix_cons _ _
  · exact List.suffix_rfl

theorem suffix_scanFraction (cs : List Char) : (scanFraction cs).2 <:+ cs := by
  unfold scanFraction
  split
  · rename_i behind
    have hspan := suffix_spanDigits isDigit_underscore behind
    split
    · exact List.suffix_rfl
    · rename_i hdigits
      rw [hdigits] at hspan
      exact suffix_cons_of hspan
  · exact List.suffix_rfl

theorem suffix_scanExponent (cs : List Char) : (scanExponent cs).2 <:+ cs := by
  unfold scanExponent
  split
  · rename_i e behind
    split
    · have hspan := suffix_spanDigits isDigit_underscore (scanSign behind).2
      dsimp only
      split
      · exact List.suffix_rfl
      · rename_i hdigits
        rw [hdigits] at hspan
        exact suffix_cons_of (hspan.trans (suffix_scanSign behind))
    · exact List.suffix_rfl
  · exact List.suffix_rfl

theorem suffix_spanWhole (cs : List Char) : (spanWhole cs).2 <:+ cs := by
  unfold spanWhole
  split
  · exact List.suffix_cons _ _
  · exact suffix_spanDigits isDigit_underscore _

/-- The whole part of a number has as many digits as stand in the text, and one where it is zero. -/
theorem holdsDecimal_spanWhole (cs : List Char) : HoldsDecimal cs (spanWhole cs).1.length := by
  fun_cases spanWhole cs with
  | case1 rest =>
    have hzero : ∀ c ∈ ['0'], isDigit c = true ∨ c = '_' := by
      intro c hc
      rw [List.mem_singleton.mp hc]
      exact Or.inl (by decide)
    exact ⟨['0'], (List.prefix_append ['0'] rest).isInfix, hzero, rfl⟩
  | case2 =>
    rcases exists_run_of_spanDigits isDigit_underscore cs with ⟨run, hrun, hmarks, hdigits⟩
    have hfront : run <+: cs := ⟨_, hrun.symm⟩
    exact ⟨run, hfront.isInfix, hmarks, congrArg List.length hdigits⟩

theorem readsFrom_scanDecimal {scan : Scan Literal} (h : scanDecimal cs = some scan) :
    ReadsFrom Prod.snd cs scan := by
  have hsign := suffix_scanSign cs
  have hwhole := suffix_spanWhole (scanSign cs).2
  have hholds := holdsDecimal_spanWhole (scanSign cs).2
  simp only [scanDecimal] at h
  split at h
  · cases h
  rename_i whole behind _ hspan
  rw [hspan] at hwhole hholds
  obtain rfl := Option.some.inj h
  have hleft : (scanExponent (scanFraction behind).2).2 <:+ cs := by
    calc (scanExponent (scanFraction behind).2).2
        <:+ (scanFraction behind).2 := suffix_scanExponent _
      _ <:+ behind := suffix_scanFraction _
      _ <:+ (scanSign cs).2 := hwhole
      _ <:+ cs := hsign
  split
  · unfold integerOf
    split
    · rename_i hlong
      exact .digits hlong (hholds.behind hsign.isInfix)
    · exact hleft
  · exact hleft

theorem suffix_of_scanSpecial {v : Literal} (h : scanSpecial cs = some (v, rest)) : rest <:+ cs := by
  have hsign := suffix_scanSign cs
  unfold scanSpecial at h
  split at h
  · rename_i behind hscan
    obtain ⟨-, rfl⟩ := Prod.mk.inj (Option.some.inj h)
    rw [hscan] at hsign
    exact (List.suffix_append ['i', 'n', 'f'] _).trans hsign
  · rename_i behind hscan
    obtain ⟨-, rfl⟩ := Prod.mk.inj (Option.some.inj h)
    rw [hscan] at hsign
    exact (List.suffix_append ['n', 'a', 'n'] _).trans hsign
  · cases h

/-! ## Keys and scalars -/

theorem readsFrom_scanName (cs : List Char) : ReadsFrom Prod.snd cs (scanName cs) := by
  unfold scanName
  split
  · rename_i rest
    exact ReadsFrom.map ((readsFrom_scanText rest).behind (List.suffix_cons _ _)) fun _ => List.suffix_rfl
  · rename_i rest
    exact ReadsFrom.map ((readsFrom_scanPlainText rest).behind (List.suffix_cons _ _)) fun _ => List.suffix_rfl
  · split
    · exact .malformed
    · exact List.dropWhile_suffix _

theorem readsFrom_scanKey (names : Nat) (cs : List Char) : ReadsFrom Prod.snd cs (scanKey names cs) := by
  induction names generalizing cs with
  | zero => exact .malformed
  | succ names ih =>
    rw [scanKey]
    refine (readsFrom_scanName cs).bind ?_
    rintro ⟨name, behind⟩
    have hgap := suffix_skipGap behind
    dsimp only
    split
    · rename_i rest hdot
      rw [hdot] at hgap
      have hrest : skipGap rest <:+ behind :=
        (suffix_skipGap rest).trans ((List.suffix_cons '.' rest).trans hgap)
      have hkey : ReadsFrom Prod.snd (skipGap rest)
          (scanKey names (skipGap rest) >>= fun p => .ok (name :: p.1, p.2)) :=
        (ih _).bind fun _ => List.suffix_rfl
      exact hkey.behind hrest
    · exact hgap

theorem readsFrom_scanScalar (cs : List Char) : ReadsFrom Prod.snd cs (scanScalar cs) := by
  unfold scanScalar
  split
  · rename_i scan htext
    exact (readsFrom_scanAnyText htext).map fun _ => List.suffix_rfl
  split
  · exact List.suffix_append ['t', 'r', 'u', 'e'] _
  · exact List.suffix_append ['f', 'a', 'l', 's', 'e'] _
  split
  · rename_i scan hclock
    exact readsFrom_scanClock hclock
  split
  · rename_i scan hbased
    exact suffix_of_scanBased hbased
  split
  · rename_i scan hdecimal
    exact readsFrom_scanDecimal hdecimal
  split
  · rename_i scan hspecial
    exact suffix_of_scanSpecial hspecial
  · exact .malformed

end ArtifactIdentity.Toml
