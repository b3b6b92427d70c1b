import ArtifactIdentity.Files.Listing
import ArtifactIdentity.Proofs.Files.Filling
import Mathlib.Data.List.Infix

/-!
# Names that a tree has not heard of

A name may be free in a directory, with nothing below it, and stand in the path of no link. Then no walk along
other names gets to the place of that name, and whatever is put there or below it afterwards changes no such
walk. This is what keeps a directory for passing use apart from the files that were there before.
-/

namespace ArtifactIdentity

namespace FileTree

/-- A name in a directory that holds nothing under it, where no link goes along that name. -/
structure Unheard (t : FileTree) (top : Location) (name : String) : Prop where
  node : ∀ l, top ++ [name] <+: l → t.get? l = none
  target : ∀ l target, t.get? l = some (.link target) → name ∉ linkNames target

variable {t t' : FileTree} {followLast : Bool} {top : Location} {name : String} {links k : Nat}
  {l : Location} {names : List String}

/-! ## Locations that do not lie below a name -/

theorem not_prefix_child {entry : String} (hl : ¬ top ++ [name] <+: l) (hentry : entry ≠ name) :
    ¬ top ++ [name] <+: l ++ [entry] := by
  intro h
  rcases List.prefix_concat_iff.mp h with hsame | habove
  · have hlast := (List.append_inj' hsame rfl).2
    exact hentry (List.singleton_injective hlast).symm
  · exact hl habove

theorem not_prefix_dropLast (hl : ¬ top ++ [name] <+: l) : ¬ top ++ [name] <+: l.dropLast := by
  intro h
  exact hl (h.trans (List.dropLast_prefix l))

theorem not_prefix_nil : ¬ top ++ [name] <+: [] := by
  intro h
  exact List.append_ne_nil_of_right_ne_nil top (List.cons_ne_nil name []) (List.prefix_nil.mp h)

theorem not_prefix_linkStart {target : String} (hl : ¬ top ++ [name] <+: l) :
    ¬ top ++ [name] <+: linkStart l target := by
  unfold linkStart
  split
  · exact not_prefix_nil
  · exact hl

/-- A directory that is found does not lie below a name that holds nothing. -/
theorem Unheard.not_prefix_of_leads {last : Location} (hunheard : t.Unheard top name)
    (h : t.Leads followLast k l names (.found last .directory)) (hl : ¬ top ++ [name] <+: l) :
    ¬ top ++ [name] <+: last := by
  generalize hp : Place.found last .directory = p at h
  induction h with
  | arrived l =>
    cases hp
    exact hl
  | here _ _ ih => exact ih hl hp
  | up _ ih => exact ih (not_prefix_dropLast hl) hp
  | enter _ _ hnode _ ih =>
    refine ih ?_ hp
    intro hbelow
    rw [hunheard.node _ hbelow] at hnode
    cases hnode
  | follow _ _ _ _ _ ih => exact ih (not_prefix_linkStart hl) hp
  | file | stop | vacant => cases hp

/-- **Trees that differ below an unheard name alone have the same walks along other names.** -/
theorem walk_congr_of_unheard (hunheard : t.Unheard top name)
    (hsame : ∀ l, ¬ top ++ [name] <+: l → t'.get? l = t.get? l) (hl : ¬ top ++ [name] <+: l)
    (hnames : name ∉ names) :
    t'.walk followLast links l names = t.walk followLast links l names := by
  -- No location on the way lies below the name, which is not among the names to come; links keep that, too.
  induction links using Nat.strongRecOn generalizing l names with
  | _ links outer =>
    induction names generalizing l with
    | nil => rw [walk_nil, walk_nil]
    | cons entry rest ih =>
      have hentry : entry ≠ name := by
        rintro rfl
        exact hnames List.mem_cons_self
      have hrest : name ∉ rest := by
        intro hmem
        exact hnames (List.mem_cons_of_mem entry hmem)
      have hchild := not_prefix_child hl hentry
      rw [walk_cons, walk_cons, hsame (l ++ [entry]) hchild, ih hl hrest,
        ih (not_prefix_dropLast hl) hrest, ih hchild hrest]
      cases hnode : t.get? (l ++ [entry]) with
      | none => rfl
      | some n =>
        cases n with
        | file data => rfl
        | directory => rfl
        | link target =>
          cases links with
          | zero => rfl
          | succ links =>
            have htarget : name ∉ linkNames target ++ rest := by
              intro hmem
              rcases List.mem_append.mp hmem with hmem | hmem
              · exact hunheard.target _ _ hnode hmem
              · exact hrest hmem
            simp only
            rw [outer links (Nat.lt_succ_self links) (not_prefix_linkStart hl) htarget]

/-! ## Evaluating what a tree has heard -/

/-- Whether something stands at a name in a directory or below it, or a link goes along the name. -/
def hasHeard (t : FileTree) (top : Location) (name : String) : Bool :=
  t.entries.any fun e =>
    (top ++ [name]).isPrefixOf e.1 ||
      match e.2 with
      | .link target => (linkNames target).contains name
      | _ => false

theorem unheard_of_hasHeard (h : t.hasHeard top name = false) : t.Unheard top name := by
  rw [hasHeard, List.any_eq_false] at h
  constructor
  · intro l hl
    cases hnode : t.get? l with
    | none => rfl
    | some n =>
      have hroot : l ≠ [] := by
        rintro rfl
        exact not_prefix_nil hl
      have hentry := h _ (mem_entries_of_get? hroot hnode)
      simp [List.isPrefixOf_iff_prefix.mpr hl] at hentry
  · intro l target hnode htarget
    have hroot : l ≠ [] := ne_nil_of_get? hnode Node.noConfusion
    have hentry := h _ (mem_entries_of_get? hroot hnode)
    simp [htarget] at hentry

/-! ## Listing the entries of a directory -/

/-- Every node in a directory is listed under its name. -/
theorem mem_below {n : Node} (h : t.get? (l ++ [name]) = some n) : [name] ∈ t.below l := by
  have hroot : l ++ [name] ≠ [] := List.append_ne_nil_of_right_ne_nil l (List.cons_ne_nil name [])
  have hmem := mem_entries_of_get? hroot h
  refine List.mem_filterMap.mpr ⟨(l ++ [name], n), hmem, ?_⟩
  have hrest : l.isPrefixOf? (l ++ [name]) = some [name] :=
    List.isPrefixOf?_eq_some_iff_append_eq.mpr rfl
  simp [hrest, goesDown]

end FileTree

/-- What an entry leads to is not changed below an unheard name, where its directory is still found. -/
theorem Machine.locate_child_congr {m : Machine} {t' : FileTree} {top l : Location} {name entry : String}
    {followLast : Bool} {p : Pathname} {k : Nat} (hunheard : m.tree.Unheard top name)
    (hsame : ∀ l, ¬ top ++ [name] <+: l → t'.get? l = m.tree.get? l) (hl : ¬ top ++ [name] <+: l)
    (hentry : IsEntryName entry) (hne : entry ≠ name) (hnul : p.holdsNul = false) (hk : k ≤ maxLinks)
    (h : m.tree.Leads true k (m.start p) p.parts (.found l .directory))
    (h' : t'.Leads true k (m.start p) p.parts (.found l .directory)) :
    (m.withTree t').locate followLast (p.child entry) = m.locate followLast (p.child entry) := by
  have hnames : name ∉ [entry] := by
    intro hmem
    exact hne (List.mem_singleton.mp hmem).symm
  calc (m.withTree t').locate followLast (p.child entry)
      = t'.walk followLast (maxLinks - k) l [entry] :=
        locate_child_eq (m := m.withTree t') hentry hnul hk h'
    _ = m.tree.walk followLast (maxLinks - k) l [entry] :=
        FileTree.walk_congr_of_unheard hunheard hsame hl hnames
    _ = m.locate followLast (p.child entry) := (locate_child_eq hentry hnul hk h).symm

/-- Among the files that are listed, a single name stands for the file that it leads to. -/
theorem Machine.contains_filesBelow {m : Machine} {p : Pathname} {l : Location} {name : String}
    (hname : IsEntryName name) (hp : m.locate true p = .ok (.found l .directory)) :
    (m.filesBelow p).contains [name] = m.isFile (p.child name) := by
  have happend : p ++ (⟨false, [name]⟩ : Pathname) = p.child name := rfl
  rw [Bool.eq_iff_iff, List.contains_iff_mem, filesBelow, hp, List.mem_filter, happend]
  constructor
  · rintro ⟨_, hfile⟩
    exact hfile
  · intro hfile
    refine ⟨?_, hfile⟩
    obtain ⟨data, hnode⟩ := isFile_iff.mp hfile
    obtain ⟨last, hlocate⟩ := node_eq_ok_iff.mp hnode
    -- The walk to the file comes by the directory, and its last step reads the entry of that name.
    obtain ⟨l', hl', k, _, hleads⟩ := locate_of_child hname hlocate
    obtain rfl : l = l' := by
      rw [hp] at hl'
      cases hl'
      rfl
    cases hleads with
    | here hsaid => exact absurd hsaid hname.1
    | up => exact absurd rfl hname.2.1
    | enter _ _ hnode => exact FileTree.mem_below hnode
    | file _ _ hnode => exact FileTree.mem_below hnode
    | follow _ _ hnode => exact FileTree.mem_below hnode

end ArtifactIdentity
