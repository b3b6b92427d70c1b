import ArtifactIdentity.Proofs.Files.Walk

/-!
# Filling places

What a program creates or overwrites is put where there was nothing or a file. No walk that ended at a place
is lost by that: it goes the same way and ends at the same location, with the new node if it is that one.
From this follows what the making of directories and the writing of a file leave of a tree.
-/

namespace ArtifactIdentity

/-! ## Walks in a filled tree -/

/-- A place after a node has been put at a location that held nothing or a file. -/
def Place.after (p : Place) (l : Location) (n : Node) : Place :=
  match p with
  | .found l' (.file data) => if l' = l then .found l n else .found l' (.file data)
  | .found l' n' => .found l' n'
  | .vacant l' => if l' = l then .found l n else .vacant l'

namespace FileTree

/-- A location that holds nothing or a file, where a program may put a file. -/
def Fillable (t : FileTree) (l : Location) : Prop :=
  l ≠ [] ∧ ∀ n, t.get? l = some n → ∃ data, n = .file data

variable {t : FileTree} {followLast : Bool} {k : Nat} {l here : Location} {names : List String}
  {p : Place} {n : Node}

/-- What is no file stays where it is. -/
theorem Fillable.get?_insert {other : Node} (hl : t.Fillable l) (hnode : t.get? here = some other)
    (hother : ∀ data, other ≠ .file data) : (t.insert l n).get? here = some other := by
  have hne : here ≠ l := by
    rintro rfl
    obtain ⟨data, hdata⟩ := hl.2 _ hnode
    exact hother data hdata
  rw [get?_insert_of_ne t hne, hnode]

/-- A last name at which a directory or a file has been put leads to it. -/
theorem leads_inserted {name : String} (hsaid : ¬ Pathname.SaysNothing name) (hup : name ≠ Pathname.up)
    (hl : here ++ [name] ≠ []) (hn : ∀ target, n ≠ .link target) :
    (t.insert (here ++ [name]) n).Leads followLast 0 here [name] (.found (here ++ [name]) n) := by
  have hnode := get?_insert_self t hl n
  cases n with
  | file data => exact .file hsaid hup hnode
  | directory => exact .enter hsaid hup hnode (.arrived _)
  | link target => exact absurd rfl (hn target)

/-- **A walk that ends somewhere goes the same way after a place has been filled.** -/
theorem Leads.insert (h : t.Leads followLast k here names p) (hl : t.Fillable l)
    (hn : ∀ target, n ≠ .link target) :
    (t.insert l n).Leads followLast k here names (p.after l n) := by
  induction h with
  | arrived l' => exact .arrived l'
  | here hsaid _ ih => exact .here hsaid ih
  | up _ ih => exact .up ih
  | enter hsaid hup hnode _ ih =>
    exact .enter hsaid hup (hl.get?_insert hnode fun _ => Node.noConfusion) ih
  | @file here name data hsaid hup hnode =>
    by_cases heq : here ++ [name] = l
    · subst heq
      simp only [Place.after, if_pos]
      exact leads_inserted hsaid hup hl.1 hn
    · simp only [Place.after, if_neg heq]
      refine .file hsaid hup ?_
      rw [get?_insert_of_ne t heq, hnode]
  | stop hsaid hup hnode hlast =>
    exact .stop hsaid hup (hl.get?_insert hnode fun _ => Node.noConfusion) hlast
  | follow hsaid hup hnode hlast _ ih =>
    exact .follow hsaid hup (hl.get?_insert hnode fun _ => Node.noConfusion) hlast ih
  | @vacant here name hsaid hup hnode =>
    by_cases heq : here ++ [name] = l
    · subst heq
      simp only [Place.after, if_pos]
      exact leads_inserted hsaid hup hl.1 hn
    · simp only [Place.after, if_neg heq]
      refine .vacant hsaid hup ?_
      rw [get?_insert_of_ne t heq, hnode]

end FileTree

namespace Machine

variable {m : Machine} {p : Pathname} {followLast : Bool}

/-- The machine with other files. -/
def withTree (m : Machine) (t : FileTree) : Machine :=
  { m with tree := t }

@[simp]
theorem withTree_tree (m : Machine) (t : FileTree) : (m.withTree t).tree = t :=
  rfl

/-- What a path leads to after a place has been filled. -/
theorem locate_insert {place : Place} {l : Location} {n : Node}
    (h : m.locate followLast p = .ok place) (hl : m.tree.Fillable l) (hn : ∀ target, n ≠ .link target) :
    (m.withTree (m.tree.insert l n)).locate followLast p = .ok (place.after l n) := by
  rw [locate_eq_ok_iff] at h ⊢
  obtain ⟨hnul, k, hk, hleads⟩ := h
  exact ⟨hnul, k, hk, hleads.insert hl hn⟩

theorem fillable_of_vacant {l : Location} (h : m.locate followLast p = .ok (.vacant l)) :
    m.tree.Fillable l := by
  obtain ⟨_, k, _, hleads⟩ := locate_eq_ok_iff.mp h
  obtain ⟨hne, hnode⟩ := hleads.get?_vacant
  refine ⟨hne, ?_⟩
  intro n hn
  rw [hnode] at hn
  cases hn

/-! ## Making directories -/

theorem directory_ne_link (target : String) : Node.directory ≠ .link target := by
  intro h
  cases h

/-- The trees that the making of a directory leaves: one directory after another is put into a vacant
place that a beginning of the path leads to. -/
inductive Makes (m : Machine) (p : Pathname) : FileTree → Prop
  | refl : Makes m p m.tree
  | make {t : FileTree} {parts : List String} {l : Location} (h : Makes m p t)
      (hparts : parts <+: p.parts)
      (hvacant : (m.withTree t).locate false ⟨p.absolute, parts⟩ = .ok (.vacant l)) :
      Makes m p (t.insert l .directory)

theorem Makes.trans {t t' : FileTree} (h : m.Makes p t) (h' : (m.withTree t).Makes p t') :
    m.Makes p t' := by
  induction h' with
  | refl => exact h
  | make _ hparts hvacant ih => exact .make ih hparts hvacant

/-- One directory made along a path, unless it is there already. -/
theorem makes_of_ensureDirectory {t : FileTree} {parts : List String} (hparts : parts <+: p.parts)
    (h : m.ensureDirectory ⟨p.absolute, parts⟩ = .ok t) : m.Makes p t := by
  unfold ensureDirectory makeDirectory at h
  cases hlocate : m.locate false ⟨p.absolute, parts⟩ with
  | error e =>
    rw [hlocate] at h
    simp only at h
    split at h
    · obtain rfl := Except.ok.inj h
      exact .refl
    · cases h
  | ok place =>
    rw [hlocate] at h
    cases place with
    | vacant l =>
      obtain rfl := Except.ok.inj h
      exact .make .refl hparts hlocate
    | found l n =>
      simp only at h
      split at h
      · obtain rfl := Except.ok.inj h
        exact .refl
      · cases h

theorem isDirectory_of_ensureDirectory {t : FileTree} (h : m.ensureDirectory p = .ok t) :
    (m.withTree t).isDirectory p = true := by
  unfold ensureDirectory makeDirectory at h
  cases hlocate : m.locate false p with
  | error e =>
    rw [hlocate] at h
    simp only at h
    split at h
    · rename_i hthere
      obtain rfl := Except.ok.inj h
      simp at hthere
      exact hthere.2
    · cases h
  | ok place =>
    rw [hlocate] at h
    cases place with
    | vacant l =>
      obtain rfl := Except.ok.inj h
      have hmade := locate_insert hlocate (fillable_of_vacant hlocate) directory_ne_link
      rw [locate_eq_ok_iff] at hmade
      obtain ⟨hnul, k, hk, hleads⟩ := hmade
      rw [Place.after, if_pos rfl] at hleads
      -- It was made without following a last link and is looked for with following it.
      rw [isDirectory_iff, node_eq_ok_iff]
      exact ⟨l, locate_eq_ok_iff.mpr ⟨hnul, k, hk, hleads.followed directory_ne_link⟩⟩
    | found l n =>
      simp only at h
      split at h
      · rename_i hthere
        obtain rfl := Except.ok.inj h
        simp at hthere
        exact hthere
      · cases h

/-- Whatever comes of the making of a directory, the tree is one that it leaves. -/
theorem makes_ensureDirectoriesUp (above : List String) (habove : above.reverse <+: p.parts) :
    m.Makes p (m.ensureDirectoriesUp p.absolute above).1 := by
  induction above with
  | nil =>
    rw [ensureDirectoriesUp]
    split
    · rename_i tree hmade
      exact makes_of_ensureDirectory habove hmade
    · exact .refl
  | cons name above ih =>
    have hparent : above.reverse <+: p.parts := by
      refine List.IsPrefix.trans ?_ habove
      rw [List.reverse_cons]
      exact List.prefix_append above.reverse [name]
    have ih := ih hparent
    rw [ensureDirectoriesUp]
    split
    · rename_i tree hmade
      exact makes_of_ensureDirectory habove hmade
    · split
      · rename_i tree e hup
        rw [hup] at ih
        exact ih
      · rename_i tree hup
        rw [hup] at ih
        split
        · rename_i tree' hmade
          exact ih.trans (makes_of_ensureDirectory habove hmade)
        · exact ih
    · exact .refl

theorem makes_ensureDirectories (m : Machine) (p : Pathname) :
    m.Makes p (m.ensureDirectories p).1 := by
  have hall : p.parts.reverse.reverse <+: p.parts := by simp
  exact makes_ensureDirectoriesUp p.parts.reverse hall

theorem isDirectory_of_ensureDirectoriesUp {absolute : Bool} {above : List String}
    (h : (m.ensureDirectoriesUp absolute above).2 = .ok ()) :
    (m.withTree (m.ensureDirectoriesUp absolute above).1).isDirectory ⟨absolute, above.reverse⟩ =
      true := by
  cases above with
  | nil =>
    rw [ensureDirectoriesUp] at h ⊢
    split at h
    · rename_i tree hmade
      exact isDirectory_of_ensureDirectory hmade
    · cases h
  | cons name above =>
    rw [ensureDirectoriesUp] at h ⊢
    split at h
    · rename_i tree hmade
      exact isDirectory_of_ensureDirectory hmade
    · split at h
      · cases h
      · split at h
        · rename_i hmade
          have hthere := isDirectory_of_ensureDirectory hmade
          exact hthere
        · cases h
    · cases h

/-- **What was asked for is a directory after it has been made.** -/
theorem isDirectory_of_ensureDirectories (h : (m.ensureDirectories p).2 = .ok ()) :
    (m.withTree (m.ensureDirectories p).1).isDirectory p = true := by
  have hmade := isDirectory_of_ensureDirectoriesUp h
  rw [List.reverse_reverse] at hmade
  exact hmade

/-- Where the directory can be made at once, or is there, the directories above it are left alone. -/
theorem ensureDirectories_of_ensureDirectory {t : FileTree} (h : m.ensureDirectory p = .ok t) :
    m.ensureDirectories p = (t, .ok ()) := by
  obtain ⟨absolute, parts⟩ := p
  rw [ensureDirectories]
  have hreverse : parts.reverse.reverse = parts := List.reverse_reverse parts
  cases hparts : parts.reverse with
  | nil =>
    rw [hparts, List.reverse_nil] at hreverse
    rw [ensureDirectoriesUp, hreverse, h]
  | cons name above =>
    rw [hparts] at hreverse
    rw [ensureDirectoriesUp]
    simp only
    rw [hreverse, h]

theorem ensureDirectories_of_vacant {l : Location} (h : m.locate false p = .ok (.vacant l)) :
    m.ensureDirectories p = (m.tree.insert l .directory, .ok ()) := by
  refine ensureDirectories_of_ensureDirectory ?_
  rw [ensureDirectory, makeDirectory, h]

/-- Nothing is made where there is a directory. -/
theorem ensureDirectories_of_isDirectory (h : m.isDirectory p = true) :
    m.ensureDirectories p = (m.tree, .ok ()) := by
  obtain ⟨l, hlocate⟩ := node_eq_ok_iff.mp (isDirectory_iff.mp h)
  obtain ⟨hnul, k, hk, hleads⟩ := locate_eq_ok_iff.mp hlocate
  obtain ⟨k', hk', l', n, hleads'⟩ := hleads.unfollowed
  have hstop : m.locate false p = .ok (.found l' n) :=
    locate_eq_ok_iff.mpr ⟨hnul, k', Nat.le_trans hk' hk, hleads'⟩
  refine ensureDirectories_of_ensureDirectory ?_
  rw [ensureDirectory, makeDirectory, hstop]
  simp [h]

/-! ## What the making of directories keeps -/

/-- What a path led to before is there after directories have been made. -/
theorem Makes.locate_found {t : FileTree} {q : Pathname} {l : Location} {n : Node}
    (h : m.Makes p t) (hfound : m.locate followLast q = .ok (.found l n)) :
    (m.withTree t).locate followLast q = .ok (.found l n) := by
  induction h with
  | refl => exact hfound
  | @make t parts l' _ _ hvacant ih =>
    have hinsert := locate_insert ih (fillable_of_vacant hvacant) directory_ne_link
    -- Only a file could have been put aside, and it does not stand where nothing was.
    cases n with
    | file data =>
      have hne : l ≠ l' := by
        rintro rfl
        obtain ⟨_, k, _, hleads⟩ := locate_eq_ok_iff.mp hvacant
        have hfile := (get?_of_file ih).2
        rw [hleads.get?_vacant.2] at hfile
        cases hfile
      rw [Place.after, if_neg hne] at hinsert
      exact hinsert
    | link target => exact hinsert
    | directory => exact hinsert

/-- What the making of directories changes: a location holds what it held before, or it held nothing and is
a directory now to which a beginning of the path leads. -/
theorem Makes.get? {t : FileTree} (h : m.Makes p t) (l : Location) :
    t.get? l = m.tree.get? l ∨
      m.tree.get? l = none ∧ t.get? l = some .directory ∧
        ∃ parts, parts <+: p.parts ∧
          (m.withTree t).locate false ⟨p.absolute, parts⟩ = .ok (.found l .directory) := by
  induction h with
  | refl => exact Or.inl rfl
  | @make t parts l' _ hparts hvacant ih =>
    obtain ⟨_, k, _, hleads⟩ := locate_eq_ok_iff.mp hvacant
    obtain ⟨hroot, hnone⟩ := hleads.get?_vacant
    have hlocate {q : Pathname} {place : Place} (h : (m.withTree t).locate false q = .ok place) :
        (m.withTree (t.insert l' .directory)).locate false q = .ok (place.after l' .directory) :=
      locate_insert h (fillable_of_vacant hvacant) directory_ne_link
    by_cases hl : l = l'
    · subst hl
      right
      refine ⟨?_, FileTree.get?_insert_self t hroot _, parts, hparts, ?_⟩
      · rcases ih with ih | ⟨_, hdirectory, _⟩
        · rw [← ih]
          exact hnone
        · rw [show t.get? l = none from hnone] at hdirectory
          cases hdirectory
      · have hmade := hlocate hvacant
        rw [Place.after, if_pos rfl] at hmade
        exact hmade
    · rw [FileTree.get?_insert_of_ne t hl]
      rcases ih with ih | ⟨hbefore, hnow, q, hq, hfound⟩
      · exact Or.inl ih
      · exact Or.inr ⟨hbefore, hnow, q, hq, hlocate hfound⟩

/-! ## Writing -/

theorem file_ne_link (data : ByteArray) (target : String) : Node.file data ≠ .link target := by
  intro h
  cases h

/-- A file is written at one location, where the path leads afterwards. -/
theorem write_eq_ok {data : ByteArray} {t : FileTree} (h : m.write p data = .ok t) :
    ∃ l, m.tree.Fillable l ∧ t = m.tree.insert l (.file data) ∧
      (m.withTree t).locate true p = .ok (.found l (.file data)) := by
  have hfilled {place : Place} {l : Location} (hlocate : m.locate true p = .ok place)
      (hl : m.tree.Fillable l) (hafter : place.after l (.file data) = .found l (.file data)) :
      (m.withTree (m.tree.insert l (.file data))).locate true p = .ok (.found l (.file data)) := by
    have hinsert := locate_insert hlocate hl (file_ne_link data)
    rw [hafter] at hinsert
    exact hinsert
  unfold write at h
  split at h
  · rename_i l old hwalk
    have hlocate := locate_of_locateToWrite hwalk
    obtain rfl := Except.ok.inj h
    obtain ⟨hroot, hfile⟩ := get?_of_file hlocate
    have hl : m.tree.Fillable l := by
      refine ⟨hroot, ?_⟩
      intro n hn
      rw [hfile] at hn
      exact ⟨old, (Option.some.inj hn).symm⟩
    refine ⟨l, hl, rfl, hfilled hlocate hl ?_⟩
    rw [Place.after, if_pos rfl]
  · rename_i l hwalk
    have hlocate := locate_of_locateToWrite hwalk
    obtain rfl := Except.ok.inj h
    have hl := fillable_of_vacant hlocate
    refine ⟨l, hl, rfl, hfilled hlocate hl ?_⟩
    rw [Place.after, if_pos rfl]
  · cases h
  · cases h

theorem write_of_vacant {l : Location} (data : ByteArray) (h : m.locate true p = .ok (.vacant l)) :
    m.write p data = .ok (m.tree.insert l (.file data)) := by
  rw [write, locateToWrite_of_locate (fun _ => Place.noConfusion) h]

theorem write_of_file {l : Location} {old : ByteArray} (data : ByteArray)
    (h : m.locate true p = .ok (.found l (.file old))) :
    m.write p data = .ok (m.tree.insert l (.file data)) := by
  have hfile (last : Location) : Place.found l (.file old) ≠ .found last .directory := by
    simp
  rw [write, locateToWrite_of_locate hfile h]

theorem node_write {data : ByteArray} {t : FileTree} (h : m.write p data = .ok t) :
    (m.withTree t).node p = .ok (.file data) := by
  obtain ⟨l, _, _, hlocate⟩ := write_eq_ok h
  exact node_eq_ok_iff.mpr ⟨l, hlocate⟩

/-- In a directory a file is written at the name it is given, unless something else is there. -/
theorem write_child {l : Location} {name : String} (hname : IsEntryName name) (data : ByteArray)
    (h : m.locate true p = .ok (.found l .directory)) (hl : m.tree.Fillable (l ++ [name])) :
    m.write (p.child name) data = .ok (m.tree.insert (l ++ [name]) (.file data)) := by
  cases hnode : m.tree.get? (l ++ [name]) with
  | none =>
    have hlocate : m.locate true (p.child name) = .ok (.vacant (l ++ [name])) :=
      locate_child hname h (.vacant hname.1 hname.2.1 hnode)
    exact write_of_vacant data hlocate
  | some n =>
    obtain ⟨old, rfl⟩ := hl.2 n hnode
    have hlocate : m.locate true (p.child name) = .ok (.found (l ++ [name]) (.file old)) :=
      locate_child hname h (.file hname.1 hname.2.1 hnode)
    exact write_of_file data hlocate

/-- What a path led to before is there after another file has been written. -/
theorem locate_found_insert {q : Pathname} {l l' : Location} {n : Node} {data : ByteArray}
    (h : m.locate followLast q = .ok (.found l n)) (hl' : m.tree.Fillable l')
    (hne : ∀ old, n = .file old → l ≠ l') :
    (m.withTree (m.tree.insert l' (.file data))).locate followLast q = .ok (.found l n) := by
  have hinsert := locate_insert h hl' (file_ne_link data)
  cases n with
  | file old =>
    rw [Place.after, if_neg (hne old rfl)] at hinsert
    exact hinsert
  | link target => exact hinsert
  | directory => exact hinsert

end Machine

end ArtifactIdentity
