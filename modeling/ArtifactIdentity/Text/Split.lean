/-!
# Splitting and joining

A text is cut at every occurrence of one separator character, and pieces are put together again with the
separator between them. The two are inverse to each other: joining the pieces of a text gives the text
back, and splitting the join of separator-free pieces gives the pieces.
-/

namespace ArtifactIdentity.Text

/-- The pieces of a text between the separators; the empty text is one empty piece. -/
def splitAt (sep : Char) : List Char → List (List Char)
  | [] => [[]]
  | c :: rest =>
    if c = sep then [] :: splitAt sep rest
    else
      match splitAt sep rest with
      | [] => [[c]]
      | piece :: pieces => (c :: piece) :: pieces

/-- The pieces in a row with the separator between two of them. -/
def joinWith (sep : Char) : List (List Char) → List Char
  | [] => []
  | [piece] => piece
  | piece :: next :: pieces => piece ++ sep :: joinWith sep (next :: pieces)

theorem splitAt_ne_nil (sep : Char) (cs : List Char) : splitAt sep cs ≠ [] := by
  cases cs with
  | nil => simp [splitAt]
  | cons c rest =>
    by_cases h : c = sep
    · simp [splitAt, h]
    · simp only [splitAt, h, if_false]
      split <;> simp

theorem splitAt_cons_sep (sep : Char) (rest : List Char) :
    splitAt sep (sep :: rest) = [] :: splitAt sep rest := by
  simp [splitAt]

theorem joinWith_cons (sep : Char) (piece : List Char) {pieces : List (List Char)}
    (h : pieces ≠ []) : joinWith sep (piece :: pieces) = piece ++ sep :: joinWith sep pieces := by
  cases pieces with
  | nil => exact absurd rfl h
  | cons next more => rfl

/-- Nothing is lost in splitting. -/
theorem joinWith_splitAt (sep : Char) (cs : List Char) : joinWith sep (splitAt sep cs) = cs := by
  induction cs with
  | nil => rfl
  | cons c rest ih =>
    by_cases h : c = sep
    · subst h
      rw [splitAt_cons_sep, joinWith_cons _ _ (splitAt_ne_nil _ _), ih, List.nil_append]
    · simp only [splitAt, h, if_false]
      split
      · rename_i hs
        exact absurd hs (splitAt_ne_nil sep rest)
      · rename_i piece pieces hs
        rw [hs] at ih
        cases pieces with
        | nil => simpa [joinWith] using ih
        | cons next more =>
          rw [joinWith_cons _ _ (by simp)] at ih ⊢
          simp [← ih]

/-- A piece without a separator in front of a rest: it extends the first piece of the rest. -/
theorem splitAt_append (sep : Char) (piece rest : List Char) (h : sep ∉ piece) :
    splitAt sep (piece ++ rest) =
      match splitAt sep rest with
      | [] => [piece]
      | first :: more => (piece ++ first) :: more := by
  induction piece with
  | nil =>
    cases hs : splitAt sep rest with
    | nil => exact absurd hs (splitAt_ne_nil sep rest)
    | cons first more => simp [hs]
  | cons c piece ih =>
    have hc : c ≠ sep := fun e => h (by simp [e])
    have hp : sep ∉ piece := fun m => h (by simp [m])
    have ih := ih hp
    cases hs : splitAt sep rest with
    | nil => exact absurd hs (splitAt_ne_nil sep rest)
    | cons first more =>
      rw [hs] at ih
      simp [splitAt, hc, ih]

/-- Splitting undoes joining for pieces that hold no separator. -/
theorem splitAt_joinWith (sep : Char) {pieces : List (List Char)} (hne : pieces ≠ [])
    (h : ∀ p ∈ pieces, sep ∉ p) : splitAt sep (joinWith sep pieces) = pieces := by
  induction pieces with
  | nil => exact absurd rfl hne
  | cons piece pieces ih =>
    have hp : sep ∉ piece := h piece (by simp)
    cases pieces with
    | nil =>
      have := splitAt_append sep piece [] hp
      simpa [joinWith, splitAt] using this
    | cons next more =>
      have ih := ih (by simp) (fun p hp => h p (by simp [hp]))
      rw [joinWith_cons _ _ (by simp), splitAt_append _ _ _ hp, splitAt_cons_sep, ih]
      simp

end ArtifactIdentity.Text
