import ArtifactIdentity.Proofs.Toml.Scalars

/-!
# The flaws of a TOML document

What ends the reading of a document is a flaw of its text: a rule of the language is broken, or the text holds a
decimal integer of too many digits. The readers of nested values keep this, a change inside a table fails by
breaking a rule, and shortening the line ends puts no digits together. In turn a pair with such an integer ends
the reading of its document.
-/

namespace ArtifactIdentity.Toml

open Text

variable {cs cs' rest : List Char} {flaw : Flaw} {n : Nat}

/-! ## Changes inside a table -/

/-- A change fails by breaking a rule. -/
def BreaksRules (change : Entries → Except Flaw Entries) : Prop :=
  ∀ entries flaw, change entries = .error flaw → flaw = .malformed

theorem breaksRules_changeTable {throughArrays : Bool} {change : Entries → Except Flaw Entries}
    (hchange : BreaksRules change) (key : Key) : BreaksRules (changeTable throughArrays change key) := by
  induction key with
  | nil => exact hchange
  | cons name key ih =>
    have inside {table : Entries} {flaw : Flaw} {put : Entries → Entries}
        (h : (changeTable throughArrays change key table).map put = .error flaw) : flaw = .malformed := by
      cases hinner : changeTable throughArrays change key table with
      | ok inner =>
        rw [hinner] at h
        cases h
      | error flaw' =>
        rw [hinner] at h
        obtain rfl : flaw' = flaw := Except.error.inj h
        exact ih table _ hinner
    intro entries flaw h
    rw [changeTable] at h
    split at h
    · exact inside h
    · exact inside h
    · split at h
      · exact inside h
      · exact (Except.error.inj h).symm
    · exact (Except.error.inj h).symm

theorem breaksRules_addAt (throughArrays : Bool) (key : Key) (v : Literal) :
    BreaksRules (addAt throughArrays key v) := by
  have hadd (name : String) : BreaksRules (addValue name v) := by
    intro entries flaw h
    unfold addValue at h
    split at h
    · exact (Except.error.inj h).symm
    · cases h
  intro entries flaw h
  unfold addAt at h
  split at h
  · exact breaksRules_changeTable (hadd _) _ _ _ h
  · exact (Except.error.inj h).symm

/-! ## Arrays and inline tables -/

/-- What the readers of nested values find with some fuel, in any text. -/
structure FindsFlaws (fuel : Nat) : Prop where
  value : ∀ cs, ReadsFrom Prod.snd cs (scanValue fuel cs)
  items : ∀ done cs, ReadsFrom Prod.snd cs (scanItems fuel done cs)
  members : ∀ complete done cs, ReadsFrom Prod.snd cs (scanMembers fuel complete done cs)
  pair : ∀ cs, ReadsFrom (fun p => p.2.2) cs (scanPair fuel cs)

variable {fuel : Nat}

theorem readsFrom_scanItems (ih : FindsFlaws fuel) (done : List Literal) (cs : List Char) :
    ReadsFrom Prod.snd cs (scanItems (fuel + 1) done cs) := by
  unfold scanItems
  split
  · exact .malformed
  · exact List.suffix_cons _ _
  · rename_i hfuel _
    cases hfuel
    refine (ih.value _).bind ?_
    rintro ⟨item, behind⟩
    refine (readsFrom_skipLines false behind).bind ?_
    intro next
    split
    · exact List.suffix_cons _ _
    · rename_i after
      have hrest (more : List Literal) :
          ReadsFrom Prod.snd after (skipLines false after >>= fun cs => scanItems fuel more cs) :=
        (readsFrom_skipLines false after).bind fun _ => ih.items _ _
      exact (hrest _).behind (List.suffix_cons _ _)
    · exact .malformed

theorem readsFrom_scanMembers (ih : FindsFlaws fuel) (complete : List Key) (done : Entries)
    (cs : List Char) : ReadsFrom Prod.snd cs (scanMembers (fuel + 1) complete done cs) := by
  rw [scanMembers]
  refine (ih.pair cs).bind ?_
  rintro ⟨key, v, behind⟩
  dsimp only
  split
  · exact .malformed
  refine ReadsFrom.after (fun flaw => breaksRules_addAt false key v done flaw) ?_
  intro more
  have hgap := suffix_skipGap behind
  split
  · rename_i rest hclose
    rw [hclose] at hgap
    exact (List.suffix_cons _ rest).trans hgap
  · rename_i rest hcomma
    rw [hcomma] at hgap
    have hrest : skipGap rest <:+ behind :=
      (suffix_skipGap rest).trans ((List.suffix_cons ',' rest).trans hgap)
    exact (ih.members _ _ _).behind hrest
  · exact .malformed

theorem readsFrom_scanValue (ih : FindsFlaws fuel) (cs : List Char) :
    ReadsFrom Prod.snd cs (scanValue (fuel + 1) cs) := by
  unfold scanValue
  split
  · exact .malformed
  · rename_i rest hfuel
    cases hfuel
    have hitems : ReadsFrom Prod.snd rest (skipLines false rest >>= fun cs => scanItems fuel [] cs) :=
      (readsFrom_skipLines false rest).bind fun _ => ih.items _ _
    exact hitems.behind (List.suffix_cons _ _)
  · rename_i rest hfuel
    cases hfuel
    have hgap := suffix_cons_of (c := '\x7b') (suffix_skipGap rest)
    split
    · rename_i after hclose
      rw [hclose] at hgap
      exact (List.suffix_cons _ after).trans hgap
    · exact (ih.members _ _ _).behind hgap
  · exact readsFrom_scanScalar _

theorem readsFrom_scanPair (ih : FindsFlaws fuel) (cs : List Char) :
    ReadsFrom (fun p => p.2.2) cs (scanPair (fuel + 1) cs) := by
  rw [scanPair]
  refine (readsFrom_scanKey _ cs).bind ?_
  rintro ⟨key, behind⟩
  dsimp only
  split
  · rename_i rest
    have hvalue : ReadsFrom (fun p : Key × Literal × List Char => p.2.2) (skipGap rest)
        (scanValue fuel (skipGap rest) >>= fun p => .ok (key, p.1, p.2)) :=
      (ih.value _).bind fun _ => List.suffix_rfl
    exact hvalue.behind (suffix_cons_of (suffix_skipGap rest))
  · exact .malformed

/-- Whatever ends the reading of a value is a flaw of the text, by induction on the fuel for all readers at
once. -/
theorem findsFlaws (fuel : Nat) : FindsFlaws fuel := by
  induction fuel with
  | zero =>
    constructor
    · exact fun _ => .malformed
    · exact fun _ _ => .malformed
    · exact fun _ _ _ => .malformed
    · exact fun _ => .malformed
  | succ fuel ih =>
    constructor
    · exact readsFrom_scanValue ih
    · exact readsFrom_scanItems ih
    · exact readsFrom_scanMembers ih
    · exact readsFrom_scanPair ih

/-! ## Documents -/

namespace Document

variable {doc doc' : Document} {key : Key}

theorem breaksRules_map {change : Entries → Except Flaw Entries} (hchange : BreaksRules change)
    {entries : Entries} {put : Entries → Document} (h : (change entries).map put = .error flaw) :
    flaw = .malformed := by
  cases hentries : change entries with
  | ok changed =>
    rw [hentries] at h
    cases h
  | error flaw' =>
    rw [hentries] at h
    obtain rfl : flaw' = flaw := Except.error.inj h
    exact hchange _ _ hentries

theorem malformed_of_setPair {v : Literal} (h : doc.setPair key v = .error flaw) : flaw = .malformed := by
  unfold setPair at h
  dsimp only at h
  split at h
  · exact (Except.error.inj h).symm
  · exact breaksRules_map (breaksRules_addAt _ _ _) h

theorem malformed_of_openTable (h : doc.openTable key = .error flaw) : flaw = .malformed := by
  have hsame : BreaksRules .ok := by
    rintro entries flaw ⟨⟩
  unfold openTable at h
  split at h
  · exact (Except.error.inj h).symm
  · exact breaksRules_map (breaksRules_changeTable hsame key) h

theorem malformed_of_openItem (h : doc.openItem key = .error flaw) : flaw = .malformed := by
  have hadd (name : String) : BreaksRules (addTable name) := by
    intro entries flaw h
    unfold addTable at h
    split at h
    · cases h
    · cases h
    · exact (Except.error.inj h).symm
  unfold openItem at h
  split at h
  · exact (Except.error.inj h).symm
  split at h
  · exact (Except.error.inj h).symm
  · exact breaksRules_map (breaksRules_changeTable (hadd _) _) h

theorem readsFrom_scanStatement (doc : Document) (cs : List Char) :
    ReadsFrom Prod.snd cs (doc.scanStatement cs) := by
  unfold scanStatement
  split
  · rename_i rest
    have hgap : skipGap rest <:+ '[' :: '[' :: rest :=
      (suffix_skipGap rest).trans (List.suffix_append ['[', '['] rest)
    refine ReadsFrom.behind (ReadsFrom.bind (readsFrom_scanKey _ _) ?_) hgap
    rintro ⟨key, behind⟩
    refine ReadsFrom.after (fun flaw => malformed_of_openItem) ?_
    intro next
    dsimp only
    split
    · exact List.suffix_append [']', ']'] _
    · exact .malformed
  · rename_i rest _
    have hgap : skipGap rest <:+ '[' :: rest := suffix_cons_of (suffix_skipGap rest)
    refine ReadsFrom.behind (ReadsFrom.bind (readsFrom_scanKey _ _) ?_) hgap
    rintro ⟨key, behind⟩
    refine ReadsFrom.after (fun flaw => malformed_of_openTable) ?_
    intro next
    dsimp only
    split
    · exact List.suffix_cons _ _
    · exact .malformed
  · exact List.suffix_rfl
  · refine ReadsFrom.bind ((findsFlaws _).pair _) ?_
    rintro ⟨key, v, behind⟩
    refine ReadsFrom.after (fun flaw => malformed_of_setPair) ?_
    intro next
    exact List.suffix_rfl

/-- What ends the reading of the lines of a document is a flaw of the text that they are read from. -/
theorem readsFrom_scanLines (lines : Nat) (doc : Document) (cs : List Char) :
    ReadsFrom (fun _ => []) cs (scanLines lines doc cs) := by
  induction lines generalizing doc cs with
  | zero => exact .malformed
  | succ lines ih =>
    have hgap := suffix_skipGap cs
    rw [scanLines]
    split
    · exact List.nil_suffix
    · rename_i rest hbreak
      rw [hbreak] at hgap
      exact (ih doc rest).behind ((List.suffix_cons _ rest).trans hgap)
    · rename_i hother _
      refine ReadsFrom.behind (ReadsFrom.bind (readsFrom_scanStatement doc _) ?_) hgap
      rintro ⟨next, behind⟩
      refine ReadsFrom.behind (ReadsFrom.bind (readsFrom_skipComment _) ?_) (suffix_skipGap behind)
      intro after
      split
      · exact List.nil_suffix
      · exact (ih _ _).behind (List.suffix_cons _ _)
      · exact .malformed

end Document

/-! ## Line ends -/

/-- A run without line ends that stands in front of a text where the line ends are shortened stood there
before. -/
theorem prefix_of_withoutReturns {run : List Char} (hrun : '\n' ∉ run) (h : run <+: withoutReturns cs) :
    run <+: cs := by
  induction run generalizing cs with
  | nil => exact List.nil_prefix
  | cons c run ih =>
    simp only [List.mem_cons, not_or] at hrun
    unfold withoutReturns at h
    split at h
    · exact h
    · -- A shortened line end is no part of the run.
      exact absurd (List.cons_prefix_cons.mp h).1.symm hrun.1
    · rename_i d rest _
      rcases List.cons_prefix_cons.mp h with ⟨hsame, hrest⟩
      exact List.cons_prefix_cons.mpr ⟨hsame, ih hrun.2 hrest⟩

theorem infix_of_withoutReturns {run : List Char} (hrun : '\n' ∉ run) (h : run <:+: withoutReturns cs) :
    run <:+: cs := by
  fun_induction withoutReturns cs with
  | case1 => exact h
  | case2 rest ih =>
    rcases List.infix_cons_iff.mp h with hfront | hlater
    · have hshort : run <+: withoutReturns ('\r' :: '\n' :: rest) := hfront
      exact (prefix_of_withoutReturns hrun hshort).isInfix
    · exact (ih hlater).trans (List.suffix_append ['\r', '\n'] rest).isInfix
  | case3 c rest hc ih =>
    rcases List.infix_cons_iff.mp h with hfront | hlater
    · have hshort : run <+: withoutReturns (c :: rest) := by
        rw [withoutReturns]
        · exact hfront
        · exact hc
      exact (prefix_of_withoutReturns hrun hshort).isInfix
    · exact (ih hlater).trans (List.suffix_cons c rest).isInfix

theorem HoldsDecimal.of_withoutReturns (h : HoldsDecimal (withoutReturns cs) n) : HoldsDecimal cs n := by
  rcases h with ⟨run, hrun, hmarks, hcount⟩
  refine ⟨run, infix_of_withoutReturns ?_ hrun, hmarks, hcount⟩
  intro hbreak
  rcases hmarks _ hbreak with hdigit | hscore
  · exact absurd hdigit (by decide)
  · exact absurd hscore (by decide)

/-- **What ends the reading of a text is a flaw of the text.** -/
theorem isFlawOf_of_ofChars (h : ofChars cs = .error flaw) : IsFlawOf cs flaw := by
  have hread := Document.readsFrom_scanLines ((withoutReturns cs).length + 1) {} (withoutReturns cs)
  unfold ofChars at h
  dsimp only at h
  cases hlines : Document.scanLines ((withoutReturns cs).length + 1) {} (withoutReturns cs) with
  | ok doc =>
    rw [hlines] at h
    cases h
  | error flaw' =>
    rw [hlines] at h hread
    obtain rfl : flaw' = flaw := Except.error.inj h
    cases hread with
    | malformed => exact .malformed
    | digits hlong hholds => exact .digits hlong hholds.of_withoutReturns

/-! ## Integers of too many digits -/

/-- A row of decimal digits that does not begin with a zero. -/
structure IsWhole (row : List Char) : Prop where
  digits : ∀ c ∈ row, isDigit c = true
  first : ∃ c rest, row = c :: rest ∧ c ≠ '0'

namespace IsWhole

variable {row : List Char}

theorem spanDigits_eq (h : IsWhole row) : spanDigits isDigit row = (row, []) := by
  have hall (ds : List Char) (hds : ∀ c ∈ ds, isDigit c = true) : spanMoreDigits isDigit ds = (ds, []) := by
    fun_induction spanMoreDigits isDigit ds with
    | case1 => rfl
    | case2 | case3 =>
      have hscore := hds '_' List.mem_cons_self
      exact absurd hscore (by decide)
    | case4 c rest _ _ more behind hspan ih =>
      have hrest := ih fun d hd => hds d (List.mem_cons_of_mem _ hd)
      rw [hspan] at hrest
      obtain ⟨rfl, rfl⟩ := Prod.mk.inj hrest
      rfl
    | case5 c rest _ hc => exact absurd (hds c List.mem_cons_self) hc
  rcases h.first with ⟨c, rest, rfl, -⟩
  rw [spanDigits, if_pos (h.digits c List.mem_cons_self),
    hall rest fun d hd => h.digits d (List.mem_cons_of_mem _ hd)]

theorem scanClock_eq (h : IsWhole row) : scanClock row = none := by
  -- A date has a hyphen in it and a time has a colon.
  have absent {c : Char} {left : List Char} (hc : isDigit c = false) (hleft : left <:+ row)
      {rest : List Char} (hexpect : expect c left = some rest) : False := by
    unfold expect at hexpect
    split at hexpect
    · rename_i d behind
      split at hexpect
      · rename_i hd
        have hdigit := h.digits d (hleft.subset List.mem_cons_self)
        rw [hd, hc] at hdigit
        cases hdigit
      · cases hexpect
    · cases hexpect
  have hdate : scanDate row = none := by
    rw [Option.eq_none_iff_forall_ne_some]
    rintro ⟨date, rest⟩ hsome
    simp only [scanDate, bind, pure, Option.bind_eq_some_iff] at hsome
    rcases hsome with ⟨⟨century, cs₁⟩, h₁, ⟨year, cs₂⟩, h₂, cs₃, h₃, -⟩
    exact absent (by decide) ((suffix_of_scanTwo h₂).trans (suffix_of_scanTwo h₁)) h₃
  have htime : scanTime row = none := by
    rw [Option.eq_none_iff_forall_ne_some]
    rintro ⟨time, rest⟩ hsome
    simp only [scanTime, bind, pure, Option.bind_eq_some_iff] at hsome
    rcases hsome with ⟨⟨hour, cs₁⟩, h₁, cs₂, h₂, -⟩
    exact absent (by decide) (suffix_of_scanTwo h₁) h₂
  rw [scanClock, hdate]
  simp only [htime, Option.map_none]

theorem scanDecimal_eq (h : IsWhole row) :
    scanDecimal row = some ((integerOf false row).map (·, [])) := by
  have hspan := h.spanDigits_eq
  rcases h.first with ⟨c, rest, rfl, hzero⟩
  have hc := h.digits c List.mem_cons_self
  have hsign : scanSign (c :: rest) = (false, c :: rest) := by
    unfold scanSign
    split
    · rename_i hcons
      rw [(List.cons.inj hcons).1] at hc
      exact absurd hc (by decide)
    · rename_i hcons
      rw [(List.cons.inj hcons).1] at hc
      exact absurd hc (by decide)
    · rfl
  have hwhole : spanWhole (c :: rest) = (c :: rest, []) := by
    unfold spanWhole
    split
    · rename_i hcons
      exact absurd (List.cons.inj hcons).1 hzero
    · exact hspan
  simp only [scanDecimal, hsign, hwhole]
  rfl

/-- A scalar that is written in digits alone is a decimal integer. -/
theorem scanScalar_eq (h : IsWhole row) : scanScalar row = (integerOf false row).map (·, []) := by
  have hclock := h.scanClock_eq
  have hdecimal := h.scanDecimal_eq
  have hfirst {c : Char} {rest : List Char} (hcons : row = c :: rest) : isDigit c = true :=
    h.digits c (hcons ▸ List.mem_cons_self)
  have htext : scanAnyText row = none := by
    unfold scanAnyText
    split
    all_goals first | rfl | exact absurd (hfirst rfl) (by decide)
  have hbased : scanBased row = none := by
    rcases h.first with ⟨c, rest, hcons, hzero⟩
    unfold scanBased
    split
    · exact absurd (List.cons.inj hcons).1.symm hzero
    · rfl
  unfold scanScalar
  rw [htext, hclock, hbased, hdecimal]
  dsimp only
  split
  · exact absurd (hfirst rfl) (by decide)
  · exact absurd (hfirst rfl) (by decide)
  · rfl

end IsWhole

/-- **A pair whose value is a decimal integer of too many digits ends the reading of its document.** -/
theorem ofChars_of_isWhole {row : List Char} (h : IsWhole row) (hlong : Version.maxDigits < row.length) :
    ofChars ('x' :: '=' :: row) = .error (.digits (.reading row.length)) := by
  have hkept (ds : List Char) (hds : '\r' ∉ ds) : withoutReturns ds = ds := by
    induction ds with
    | nil => rfl
    | cons c rest ih =>
      simp only [List.mem_cons, not_or] at hds
      rw [withoutReturns, ih hds.2]
      rintro _ rfl
      exact absurd rfl hds.1
  have hreturn : '\r' ∉ 'x' :: '=' :: row := by
    simp only [List.mem_cons, not_or]
    refine ⟨by decide, by decide, fun hr => ?_⟩
    exact absurd (h.digits _ hr) (by decide)
  have hfirst {c : Char} {rest : List Char} (hcons : row = c :: rest) : isDigit c = true :=
    h.digits c (hcons ▸ List.mem_cons_self)
  have hgap : skipGap row = row := by
    rcases h.first with ⟨c, rest, rfl, -⟩
    have hc : ¬ isGap c = true := by
      intro hblank
      have hdigit := hfirst rfl
      simp only [isGap, Bool.or_eq_true, decide_eq_true_eq] at hblank
      rcases hblank with rfl | rfl
      · exact absurd hdigit (by decide)
      · exact absurd hdigit (by decide)
    exact List.dropWhile_cons_of_neg hc
  have hinteger : integerOf false row = .error (.digits (.reading row.length)) := if_pos hlong
  have hvalue (fuel : Nat) : scanValue (fuel + 1) row = .error (.digits (.reading row.length)) := by
    unfold scanValue
    split
    · cases ‹fuel + 1 = 0›
    · exact absurd (hfirst rfl) (by decide)
    · exact absurd (hfirst rfl) (by decide)
    · rw [h.scanScalar_eq, hinteger]
      rfl
  have hkey (names : Nat) : scanKey (names + 1) ('x' :: '=' :: row) = .ok (["x"], '=' :: row) := rfl
  have hpair (fuel : Nat) :
      scanPair (fuel + 2) ('x' :: '=' :: row) = .error (.digits (.reading row.length)) := by
    rw [scanPair, hkey]
    show (scanValue (fuel + 1) (skipGap row) >>= fun p => _) = _
    rw [hgap, hvalue]
    rfl
  have hlines (lines : Nat) (doc : Document) :
      Document.scanLines (lines + 1) doc ('x' :: '=' :: row) = .error (.digits (.reading row.length)) := by
    show (scanPair (2 * (row.length + 2) + 3) ('x' :: '=' :: row) >>= fun p => _) >>= _ = _
    rw [hpair]
    rfl
  rw [ofChars, hkept _ hreturn]
  show (Document.scanLines (row.length + 2 + 1) {} ('x' :: '=' :: row)).map Document.root = _
  rw [hlines]
  rfl

end ArtifactIdentity.Toml
