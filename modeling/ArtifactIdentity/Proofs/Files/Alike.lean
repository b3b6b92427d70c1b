import ArtifactIdentity.Proofs.Files.Resolution
import ArtifactIdentity.Proofs.Stamping

/-!
# Trees that differ in one file

Two trees may hold different files at one location and be the same everywhere else. Every walk then goes the
same way in both, paths are resolved alike, and the making of directories and the writing of a file fail
alike or leave two trees that again differ at that location alone.
-/

namespace ArtifactIdentity

namespace FileTree

/-- Both trees hold a file at one location, and they are the same at every other. -/
structure AlikeBut (l : Location) (t t' : FileTree) : Prop where
  before : ∃ data, t.get? l = some (.file data)
  after : ∃ data, t'.get? l = some (.file data)
  elsewhere : ∀ here, here ≠ l → t'.get? here = t.get? here

variable {t t' : FileTree} {l here : Location} {names : List String} {followLast : Bool} {links : Nat}
  {data : ByteArray} {n : Node}

/-- A walk goes the same way where the walks behind links do. -/
theorem AlikeBut.walkWith {onward onward' : Location → List String → Except FileError Place}
    (h : AlikeBut l t t') (hfile : t'.get? l = some (.file data))
    (honward : ∀ here names, onward' here names = (onward here names).map (Place.after · l (.file data))) :
    t'.walkWith followLast onward' here names =
      (t.walkWith followLast onward here names).map (Place.after · l (.file data)) := by
  induction names generalizing here with
  | nil => rfl
  | cons name rest ih =>
    rw [walkWith_cons, walkWith_cons]
    by_cases hsaid : Pathname.SaysNothing name
    · rw [if_pos hsaid, if_pos hsaid, ih]
    by_cases hup : name = Pathname.up
    · rw [if_neg hsaid, if_neg hsaid, if_pos hup, if_pos hup, ih]
    rw [if_neg hsaid, if_neg hsaid, if_neg hup, if_neg hup]
    by_cases hl : here ++ [name] = l
    · obtain ⟨old, hold⟩ := h.before
      rw [hl, hfile, hold]
      by_cases hrest : rest = []
      · simp [hrest, Except.map, Place.after]
      · simp [hrest, Except.map]
    rw [h.elsewhere _ hl]
    cases t.get? (here ++ [name]) with
    | none =>
      by_cases hrest : rest = []
      · simp [hrest, Except.map, Place.after, hl]
      · simp [hrest, Except.map]
    | some n =>
      cases n with
      | directory => exact ih
      | file other =>
        by_cases hrest : rest = []
        · simp [hrest, Except.map, Place.after, hl]
        · simp [hrest, Except.map]
      | link target =>
        simp only
        by_cases hstop : (decide (rest = []) && !followLast) = true
        · rw [if_pos hstop, if_pos hstop]
          rfl
        · rw [if_neg hstop, if_neg hstop]
          exact honward _ _

/-- **A walk goes the same way, to another file where it leads to the one in which the trees differ.** -/
theorem AlikeBut.walk (h : AlikeBut l t t') (hfile : t'.get? l = some (.file data)) :
    t'.walk followLast links here names =
      (t.walk followLast links here names).map (Place.after · l (.file data)) := by
  induction links generalizing here names with
  | zero => exact h.walkWith hfile fun _ _ => rfl
  | succ links ih => exact h.walkWith hfile fun _ _ => ih

theorem AlikeBut.walkToWrite (h : AlikeBut l t t') (hfile : t'.get? l = some (.file data)) :
    t'.walkToWrite links here names =
      (t.walkToWrite links here names).map (Place.after · l (.file data)) := by
  induction links generalizing here names with
  | zero => exact h.walkWith hfile fun _ _ => rfl
  | succ links ih =>
    refine h.walkWith hfile fun here names => ?_
    split
    · rw [h.walk hfile]
      cases t.walk false links here (names.reverse.dropWhile (· = "")).reverse with
      | error e => rfl
      | ok place => rfl
    · exact ih

theorem AlikeBut.ne_of_get? (h : AlikeBut l t t') (hnode : t.get? here = none) : here ≠ l := by
  rintro rfl
  obtain ⟨data, hdata⟩ := h.before
  rw [hdata] at hnode
  cases hnode

/-- The same file or directory may be put into both trees, if only a file is put where they differ. -/
theorem AlikeBut.insert (h : AlikeBut l t t') (hroot : here ≠ []) (hn : here = l → ∃ data, n = .file data) :
    AlikeBut l (t.insert here n) (t'.insert here n) := by
  have hfile {t : FileTree} (hbefore : ∃ data, t.get? l = some (.file data)) :
      ∃ data, (t.insert here n).get? l = some (.file data) := by
    by_cases hl : here = l
    · obtain ⟨data, rfl⟩ := hn hl
      exact ⟨data, hl ▸ get?_insert_self t hroot _⟩
    · rw [get?_insert_of_ne t (Ne.symm hl)]
      exact hbefore
  constructor
  · exact hfile h.before
  · exact hfile h.after
  · intro other hother
    by_cases hsame : other = here
    · rw [hsame, get?_insert_self t hroot, get?_insert_self t' hroot]
    · rw [get?_insert_of_ne t hsame, get?_insert_of_ne t' hsame, h.elsewhere other hother]

theorem AlikeBut.sameLinks (h : AlikeBut l t t') : t.SameLinks t' := by
  intro here target
  by_cases hl : here = l
  · obtain ⟨data, hdata⟩ := h.before
    obtain ⟨data', hdata'⟩ := h.after
    rw [hl, hdata, hdata']
    simp
  · rw [h.elsewhere here hl]

end FileTree

namespace Machine

open FileTree

variable {m : Machine} {t' : FileTree} {l : Location} {p root : Pathname} {followLast : Bool}
  {data : ByteArray}

/-! ## Locating and resolving -/

theorem locate_alike (h : AlikeBut l m.tree t') (hfile : t'.get? l = some (.file data)) :
    (m.withTree t').locate followLast p =
      (m.locate followLast p).map (Place.after · l (.file data)) := by
  unfold locate
  cases p.holdsNul with
  | true => rfl
  | false => exact h.walk hfile

theorem locateToWrite_alike (h : AlikeBut l m.tree t') (hfile : t'.get? l = some (.file data)) :
    (m.withTree t').locateToWrite p = (m.locateToWrite p).map (Place.after · l (.file data)) := by
  unfold locateToWrite
  cases p.holdsNul with
  | true => rfl
  | false => exact h.walkToWrite hfile

theorem isDirectory_alike (h : AlikeBut l m.tree t') :
    (m.withTree t').isDirectory p = m.isDirectory p := by
  obtain ⟨data, hfile⟩ := h.after
  unfold isDirectory node
  rw [locate_alike h hfile]
  cases m.locate true p with
  | error e => rfl
  | ok place =>
    cases place with
    | vacant here => by_cases hl : here = l <;> simp [Except.map, Place.after, hl]
    | found here n =>
      cases n with
      | file other => by_cases hl : here = l <;> simp [Except.map, Place.after, hl]
      | link target => rfl
      | directory => rfl

/-- What a path leads to is the same, unless it is the file in which the trees differ. -/
theorem node_alike (h : AlikeBut l m.tree t')
    (happart : ∀ data, m.locate true p ≠ .ok (.found l (.file data))) :
    (m.withTree t').node p = m.node p := by
  obtain ⟨data, hfile⟩ := h.after
  unfold node
  rw [locate_alike h hfile]
  cases hlocate : m.locate true p with
  | error e => rfl
  | ok place =>
    cases place with
    | vacant here =>
      obtain ⟨_, k, _, hleads⟩ := locate_eq_ok_iff.mp hlocate
      have hl := h.ne_of_get? hleads.get?_vacant.2
      simp only [Except.map, Place.after, if_neg hl]
    | found here n =>
      cases n with
      | file other =>
        have hl : here ≠ l := by
          rintro rfl
          exact happart other hlocate
        simp only [Except.map, Place.after, if_neg hl]
      | link target => rfl
      | directory => rfl

/-- Paths are resolved alike. -/
theorem resolve_alike (h : AlikeBut l m.tree t') : (m.withTree t').resolve p = m.resolve p := by
  obtain ⟨data, hfile⟩ := h.after
  unfold resolve
  rw [expansion_congr h.sameLinks]
  cases m.expansion p with
  | done s here => rfl
  | nul => rfl
  | endless => rfl
  | looped text =>
    simp only
    rw [locate_alike h hfile]
    cases m.locate true (.ofLocation (Location.ofText text)) with
    | error e => rfl
    | ok place => rfl

theorem resolveOutput_alike (h : AlikeBut l m.tree t') (output : String) :
    (m.withTree t').resolveOutput root output = m.resolveOutput root output := by
  have hresolved (p : Pathname) : (m.withTree t').resolved p = m.resolved p := by
    rw [resolved, resolved, resolve_alike h]
  simp only [resolveOutput, hresolved]

/-! ## Making directories and writing -/

/-- Two attempts at changing files fail alike, or leave trees that differ in one file. -/
inductive AlikeResults (l : Location) : Except FileError FileTree → Except FileError FileTree → Prop
  | ok {t t' : FileTree} (h : AlikeBut l t t') : AlikeResults l (.ok t) (.ok t')
  | error (e : FileError) : AlikeResults l (.error e) (.error e)

theorem alikeResults_makeDirectory (h : AlikeBut l m.tree t') :
    AlikeResults l (m.makeDirectory p) ((m.withTree t').makeDirectory p) := by
  obtain ⟨data, hfile⟩ := h.after
  unfold makeDirectory
  rw [locate_alike h hfile]
  cases hlocate : m.locate false p with
  | error e => exact .error e
  | ok place =>
    cases place with
    | found here n =>
      cases n with
      | file other =>
        by_cases hl : here = l
        · simp only [Except.map, Place.after, if_pos hl]
          exact .error .alreadyExists
        · simp only [Except.map, Place.after, if_neg hl]
          exact .error .alreadyExists
      | link target => exact .error .alreadyExists
      | directory => exact .error .alreadyExists
    | vacant here =>
      obtain ⟨_, k, _, hleads⟩ := locate_eq_ok_iff.mp hlocate
      obtain ⟨hroot, hnone⟩ := hleads.get?_vacant
      have hl := h.ne_of_get? hnone
      simp only [Except.map, Place.after, if_neg hl]
      apply AlikeResults.ok
      apply h.insert hroot
      intro heq
      exact absurd heq hl

theorem alikeResults_ensureDirectory (h : AlikeBut l m.tree t') :
    AlikeResults l (m.ensureDirectory p) ((m.withTree t').ensureDirectory p) := by
  have hmake := alikeResults_makeDirectory (p := p) h
  unfold ensureDirectory
  rw [isDirectory_alike h]
  generalize m.makeDirectory p = made, (m.withTree t').makeDirectory p = made' at hmake
  cases hmake with
  | ok hmade => exact .ok hmade
  | error e =>
    simp only
    split
    · exact .ok h
    · exact .error e

/-- One step up on the way to a directory. -/
theorem ensureDirectoriesUp_cons (m : Machine) (absolute : Bool) (name : String) (above : List String) :
    m.ensureDirectoriesUp absolute (name :: above) =
      match m.ensureDirectory ⟨absolute, (name :: above).reverse⟩ with
      | .ok tree => (tree, .ok ())
      | .error .notFound =>
        match m.ensureDirectoriesUp absolute above with
        | (tree, .error e) => (tree, .error e)
        | (tree, .ok ()) =>
          match (m.withTree tree).ensureDirectory ⟨absolute, (name :: above).reverse⟩ with
          | .ok tree => (tree, .ok ())
          | .error e => (tree, .error e)
      | .error e => (m.tree, .error e) :=
  rfl

/-- Directories are made alike, whatever comes of it. -/
theorem ensureDirectoriesUp_alike (absolute : Bool) (above : List String) (h : AlikeBut l m.tree t') :
    AlikeBut l (m.ensureDirectoriesUp absolute above).1
        ((m.withTree t').ensureDirectoriesUp absolute above).1 ∧
      ((m.withTree t').ensureDirectoriesUp absolute above).2 =
        (m.ensureDirectoriesUp absolute above).2 := by
  induction above with
  | nil =>
    have hensure := alikeResults_ensureDirectory (p := ⟨absolute, []⟩) h
    rw [ensureDirectoriesUp, ensureDirectoriesUp]
    generalize m.ensureDirectory ⟨absolute, []⟩ = made,
      (m.withTree t').ensureDirectory ⟨absolute, []⟩ = made' at hensure
    cases hensure with
    | ok hmade => exact ⟨hmade, rfl⟩
    | error e => exact ⟨h, rfl⟩
  | cons name above ih =>
    have hensure := alikeResults_ensureDirectory (p := ⟨absolute, (name :: above).reverse⟩) h
    rw [ensureDirectoriesUp_cons, ensureDirectoriesUp_cons]
    generalize m.ensureDirectory ⟨absolute, (name :: above).reverse⟩ = made,
      (m.withTree t').ensureDirectory ⟨absolute, (name :: above).reverse⟩ = made' at hensure
    cases hensure with
    | ok hmade => exact ⟨hmade, rfl⟩
    | error e =>
      by_cases he : e = .notFound
      · subst he
        generalize m.ensureDirectoriesUp absolute above = up,
          (m.withTree t').ensureDirectoriesUp absolute above = up' at ih
        obtain ⟨t, result⟩ := up
        obtain ⟨u, result'⟩ := up'
        obtain ⟨htrees, rfl⟩ : AlikeBut l t u ∧ result' = result := ih
        cases result' with
        | error e => exact ⟨htrees, rfl⟩
        | ok _ =>
          -- The directories above are there now, in trees that are alike again.
          have hagain : AlikeResults l ((m.withTree t).ensureDirectory ⟨absolute, (name :: above).reverse⟩)
              (((m.withTree t').withTree u).ensureDirectory ⟨absolute, (name :: above).reverse⟩) :=
            alikeResults_ensureDirectory (m := m.withTree t) htrees
          simp only
          generalize (m.withTree t).ensureDirectory ⟨absolute, (name :: above).reverse⟩ = made,
            ((m.withTree t').withTree u).ensureDirectory ⟨absolute, (name :: above).reverse⟩ = made'
            at hagain
          cases hagain with
          | ok hmade => exact ⟨hmade, rfl⟩
          | error e => exact ⟨htrees, rfl⟩
      · cases e with
        | notFound => exact absurd rfl he
        | _ => exact ⟨h, rfl⟩

theorem alikeResults_write {content : ByteArray} (h : AlikeBut l m.tree t') :
    AlikeResults l (m.write p content) ((m.withTree t').write p content) := by
  obtain ⟨data, hfile⟩ := h.after
  unfold write
  rw [locateToWrite_alike h hfile]
  cases hwalk : m.locateToWrite p with
  | error e => exact .error e
  | ok place =>
    have hlocate := locate_of_locateToWrite hwalk
    cases place with
    | found here n =>
      cases n with
      | file other =>
        have hroot := (get?_of_file hlocate).1
        have hinsert := h.insert hroot fun _ => ⟨content, rfl⟩
        by_cases hl : here = l
        · simp only [Except.map, Place.after, if_pos hl]
          subst hl
          exact .ok hinsert
        · simp only [Except.map, Place.after, if_neg hl]
          exact .ok hinsert
      | link target => exact .error .isADirectory
      | directory => exact .error .isADirectory
    | vacant here =>
      obtain ⟨_, k, _, hleads⟩ := locate_eq_ok_iff.mp hlocate
      obtain ⟨hroot, hnone⟩ := hleads.get?_vacant
      simp only [Except.map, Place.after, if_neg (h.ne_of_get? hnone)]
      exact .ok (h.insert hroot fun _ => ⟨content, rfl⟩)

theorem writeBlock_eq (m : Machine) (directory : Pathname) (d : Descriptor) :
    m.writeBlock directory d =
      match m.ensureDirectoriesUp directory.absolute directory.parts.reverse with
      | (tree, .error e) => (tree, .error e)
      | (tree, .ok ()) =>
        match (m.withTree tree).write (directory.child Block.fileName) (Block.bytes d) with
        | .ok tree => (tree, .ok ())
        | .error e => (tree, .error e) :=
  rfl

/-- **A block is written alike: the trees that are left differ in the same file, if at all.** -/
theorem writeBlock_alike (directory : Pathname) (d : Descriptor) (h : AlikeBut l m.tree t') :
    AlikeBut l (m.writeBlock directory d).1 ((m.withTree t').writeBlock directory d).1 ∧
      ((m.withTree t').writeBlock directory d).2 = (m.writeBlock directory d).2 := by
  have hmade := ensureDirectoriesUp_alike directory.absolute directory.parts.reverse h
  rw [writeBlock_eq, writeBlock_eq]
  generalize m.ensureDirectoriesUp directory.absolute directory.parts.reverse = up,
    (m.withTree t').ensureDirectoriesUp directory.absolute directory.parts.reverse = up' at hmade
  obtain ⟨t, result⟩ := up
  obtain ⟨u, result'⟩ := up'
  obtain ⟨htrees, rfl⟩ : AlikeBut l t u ∧ result' = result := hmade
  cases result' with
  | error e => exact ⟨htrees, rfl⟩
  | ok _ =>
    have hwrite : AlikeResults l ((m.withTree t).write (directory.child Block.fileName) (Block.bytes d))
        (((m.withTree t').withTree u).write (directory.child Block.fileName) (Block.bytes d)) :=
      alikeResults_write (m := m.withTree t) htrees
    simp only
    generalize (m.withTree t).write (directory.child Block.fileName) (Block.bytes d) = written,
      ((m.withTree t').withTree u).write (directory.child Block.fileName) (Block.bytes d) = written'
      at hwrite
    cases hwrite with
    | ok hwritten => exact ⟨hwritten, rfl⟩
    | error e => exact ⟨htrees, rfl⟩

end Machine

end ArtifactIdentity
