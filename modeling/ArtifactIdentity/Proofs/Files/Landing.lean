import ArtifactIdentity.Proofs.Files.Resolution

/-!
# Where a path lands

A location with no link on the way there is where a walk along its names lands, and no other. What a link that is
opened comes out at is told by following the names of its path in less room.
-/

namespace ArtifactIdentity

/-- Where a place is, be there a node or not. -/
def Place.location : Place → Location
  | .found l _ | .vacant l => l

theorem Place.location_after (p : Place) (l : Location) (n : Node) : (p.after l n).location = p.location := by
  unfold Place.after
  split
  · split
    · rename_i heq
      exact heq.symm
    · rfl
  · rfl
  · split
    · rename_i heq
      exact heq.symm
    · rfl

namespace FileTree

variable {t t' : FileTree} {followLast : Bool} {k k' depth : Nat} {l here last : Location}
  {names : List String} {name : String} {p p' : Place} {room : Nat} {s s' : Spelling}
  {opened : List (Spelling × Location)}

/-! ## Straight locations -/

/-- A location whose names lead down, and no link stands there or above. -/
structure Straight (t : FileTree) (l : Location) : Prop where
  names : ∀ name ∈ l, ¬ Pathname.SaysNothing name ∧ name ≠ Pathname.up
  links : ∀ above, above <+: l → ∀ target, t.get? above ≠ some (.link target)

theorem Straight.nil (t : FileTree) : t.Straight [] := by
  constructor
  · simp
  · intro above habove target
    rw [List.prefix_nil.mp habove, get?_root]
    exact fun h => by cases h

theorem Straight.above {above : Location} (h : t.Straight l) (habove : above <+: l) : t.Straight above := by
  constructor
  · intro name hname
    exact h.names name (habove.subset hname)
  · intro higher hhigher
    exact h.links higher (hhigher.trans habove)

theorem Straight.concat (h : t.Straight l) (hsaid : ¬ Pathname.SaysNothing name) (hup : name ≠ Pathname.up)
    (hnode : ∀ target, t.get? (l ++ [name]) ≠ some (.link target)) : t.Straight (l ++ [name]) := by
  constructor
  · intro other hother
    rcases List.mem_append.mp hother with hother | hother
    · exact h.names other hother
    · obtain rfl := List.mem_singleton.mp hother
      exact ⟨hsaid, hup⟩
  · intro above habove
    rcases List.prefix_concat_iff.mp habove with rfl | habove
    · exact hnode
    · exact h.links above habove

theorem Straight.isDoubled_eq_false (h : t.Straight l) : l.isDoubled = false := by
  rw [Location.isDoubled, decide_eq_false_iff_not]
  intro hhead
  exact (h.names "" (List.mem_of_head? hhead)).1 (Or.inl rfl)

theorem Straight.linkStart {target : String} (h : t.Straight l) :
    t.Straight (ArtifactIdentity.linkStart l target) := by
  unfold ArtifactIdentity.linkStart
  split
  · exact .nil t
  · exact h

/-- Whether a location is straight is told by the links. -/
theorem Straight.congr (hlinks : t.SameLinks t') (h : t.Straight l) : t'.Straight l := by
  constructor
  · exact h.names
  · intro above habove target hnode
    exact h.links above habove target ((hlinks above target).mpr hnode)

/-- **A walk along a straight location lands there.** -/
theorem Straight.location_of_leads (h : t.Leads followLast k here names p)
    (hstraight : t.Straight (here ++ names)) : p.location = here ++ names := by
  induction h with
  | arrived l => exact (List.append_nil l).symm
  | here hsaid => exact absurd hsaid (hstraight.names _ (by simp)).1
  | up => exact absurd rfl (hstraight.names _ (by simp)).2
  | enter _ _ _ _ ih =>
    rw [List.append_cons] at hstraight ⊢
    exact ih hstraight
  | file | vacant => rfl
  | stop _ _ hnode => exact absurd hnode (hstraight.links _ (List.prefix_rfl) _)
  | @follow _ l name _ rest _ _ _ hnode =>
    have habove : l ++ [name] <+: l ++ name :: rest := ⟨rest, (List.append_cons l name rest).symm⟩
    exact absurd hnode (hstraight.links _ habove _)

/-! ## Opened links -/

/-- How a link is opened in some room while others are being opened. -/
def opener (t : FileTree) (depth : Nat) :
    (room : Nat) → (opened : List (Spelling × Location)) → Spelling → Location → String → Expansion
  | 0, opened, s, link, _ => reopened opened s link
  | room + 1, opened, s, link, target =>
    if isOpen depth opened s link then reopened opened s link
    else
      t.expand depth room ((s, link) :: opened) (s.behind target) (linkStart link.dropLast target)
        (linkNames target)

theorem expand_eq_expandWith (t : FileTree) (depth room : Nat) (opened : List (Spelling × Location)) :
    t.expand depth room opened = t.expandWith depth (t.opener depth room opened) := by
  cases room <;> rfl

/-- Nothing comes out of a link that is being opened. -/
theorem reopened_ne_done {s s' : Spelling} {link there : Location} : reopened opened s link ≠ .done s' there := by
  unfold reopened
  split
  · exact Expansion.noConfusion
  · exact Expansion.noConfusion

theorem reopened_ne_nul {s : Spelling} {link : Location} : reopened opened s link ≠ .nul := by
  unfold reopened
  split
  · exact Expansion.noConfusion
  · exact Expansion.noConfusion

/-- A link is open only where one is being opened at its location. -/
theorem exists_of_isOpen {s : Spelling} {link : Location} (h : isOpen depth opened s link = true) :
    ∃ way ∈ opened, way.2 = link := by
  obtain ⟨way, hway, hkey⟩ := List.mem_map.mp (List.contains_iff_mem.mp h)
  exact ⟨way, hway, congrArg Prod.snd hkey⟩

theorem isOpen_eq_false {s : Spelling} {link : Location} (hnew : ∀ way ∈ opened, way.2 ≠ link) :
    isOpen depth opened s link = false := by
  rw [Bool.eq_false_iff]
  intro hopen
  obtain ⟨way, hway, hlink⟩ := exists_of_isOpen hopen
  exact hnew way hway hlink

theorem opener_of_new (t : FileTree) (depth room : Nat) {s : Spelling} {link : Location} (target : String)
    (hnew : isOpen depth opened s link = false) :
    t.opener depth (room + 1) opened s link target =
      t.expand depth room ((s, link) :: opened) (s.behind target) (linkStart link.dropLast target)
        (linkNames target) := by
  rw [opener, if_neg (Bool.eq_false_iff.mp hnew)]

/-- What comes out of opening a link, if not that it is open already, comes out of its path in less room. -/
theorem expand_of_opener {link : Location} {target : String} {result : Expansion}
    (hresult : ∀ opened, reopened opened s link ≠ result)
    (h : t.opener depth room opened s link target = result) :
    ∃ room' < room, ∃ opened', t.expand depth room' opened' (s.behind target)
      (linkStart link.dropLast target) (linkNames target) = result := by
  cases room with
  | zero => exact absurd h (hresult opened)
  | succ room =>
    rw [opener] at h
    split at h
    · exact absurd h (hresult opened)
    · exact ⟨room, Nat.lt_succ_self room, _, h⟩

/-- A link on the way to a directory, and the way behind it. -/
theorem Leads.behind_link {target : String} {rest : List String}
    (h : t.Leads true k (linkStart l target) (linkNames target ++ rest) (.found last .directory)) :
    ∃ k₁ k₂ middle, k = k₁ + k₂ ∧
      t.Leads true k₁ (linkStart l target) (linkNames target) (.found middle .directory) ∧
      t.Leads true k₂ middle rest (.found last .directory) := by
  by_cases hrest : rest = []
  · subst hrest
    rw [List.append_nil] at h
    exact ⟨k, 0, last, rfl, h, .arrived last⟩
  · exact h.split hrest

/-! ## Nodes and the directories that they stand in -/

/-- Every node of a tree stands in a directory. -/
def Grounded (t : FileTree) : Prop :=
  ∀ l name n, t.get? (l ++ [name]) = some n → t.get? l = some .directory

theorem grounded_of_entries (h : ∀ e ∈ t.entries, t.get? e.1.dropLast = some .directory) : t.Grounded := by
  intro l name n hnode
  have hparent := h _ (mem_entries_of_get? (List.concat_ne_nil name l) hnode)
  rwa [List.dropLast_concat] at hparent

/-- Above a directory there are directories. -/
theorem Grounded.directory_above {above : Location} (ht : t.Grounded) (h : t.get? l = some .directory)
    (habove : above <+: l) : t.get? above = some .directory := by
  induction l using List.reverseRecOn with
  | nil => rwa [List.prefix_nil.mp habove]
  | append_singleton l name ih =>
    rcases List.prefix_concat_iff.mp habove with rfl | habove
    · exact h
    · exact ih (ht l name _ h) habove

/-- The first name of a walk that finds something is that of a node. -/
theorem Leads.exists_child {n : Node} (hname : ¬ Pathname.SaysNothing name ∧ name ≠ Pathname.up)
    (h : t.Leads followLast k l [name] (.found last n)) : ∃ child, t.get? (l ++ [name]) = some child := by
  cases h with
  | here hsaid => exact absurd hsaid hname.1
  | up => exact absurd rfl hname.2
  | enter _ _ hnode | file _ _ hnode | stop _ _ hnode | follow _ _ hnode => exact ⟨_, hnode⟩

end FileTree

namespace Machine

open FileTree

variable {m : Machine} {p : Pathname} {l last : Location} {followLast : Bool} {place : Place} {t : FileTree}

/-- The links of a path lead back to one of themselves. -/
def Loops (m : Machine) (p : Pathname) : Prop :=
  ∃ text, m.expansion p = .looped text

theorem location_of_locate (h : m.locate followLast (.ofLocation l) = .ok place) (hl : m.tree.Straight l) :
    place.location = l := by
  obtain ⟨_, k, _, hleads⟩ := locate_eq_ok_iff.mp h
  have hland := Straight.location_of_leads hleads hl
  exact hland

/-- A file is written at the place that its path led to before, and leads to afterwards. -/
theorem exists_place_of_write {data : ByteArray} (h : m.write p data = .ok t) :
    ∃ place, m.locate true p = .ok place ∧ t = m.tree.insert place.location (.file data) ∧
      (m.withTree t).locate true p = .ok (.found place.location (.file data)) := by
  obtain ⟨l, hfill, rfl, hafter⟩ := write_eq_ok h
  cases hwalk : m.locateToWrite p with
  | error e =>
    rw [write, hwalk] at h
    cases h
  | ok place =>
    have hbefore := locate_of_locateToWrite hwalk
    have hinsert := locate_insert hbefore hfill (file_ne_link data)
    have hsame : place.after l (.file data) = .found l (.file data) :=
      Except.ok.inj (hinsert.symm.trans hafter)
    obtain rfl : l = place.location := by
      rw [← place.location_after l (.file data), hsame]
      rfl
    exact ⟨place, hbefore, rfl, hafter⟩

end Machine

end ArtifactIdentity
