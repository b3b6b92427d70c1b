import ArtifactIdentity.Files.Resolution
import ArtifactIdentity.Proofs.Files.Filling
import Mathlib.Data.Finset.Prod

/-!
# Resolution depends on links alone

What a path resolves to is told by the links of a tree: files and directories may come and go. The room for
links that are being opened is given by the number of nodes, and more room gives the same result, since no
link is opened inside itself by ways of one rank.
-/

namespace ArtifactIdentity

namespace FileTree

/-- Two trees have the same links at the same locations. -/
def SameLinks (t t' : FileTree) : Prop :=
  ∀ l target, t.get? l = some (.link target) ↔ t'.get? l = some (.link target)

variable {t t' : FileTree}

theorem SameLinks.trans {t'' : FileTree} (h : t.SameLinks t') (h' : t'.SameLinks t'') :
    t.SameLinks t'' := by
  intro l target
  rw [h l target, h' l target]

theorem expandWith_cons (t : FileTree) (depth : Nat)
    (openLink : Spelling → Location → String → Expansion) (s : Spelling) (here : Location) (name : String)
    (rest : List String) :
    t.expandWith depth openLink s here (name :: rest) =
      if Pathname.SaysNothing name then t.expandWith depth openLink s here rest
      else if name = Pathname.up then
        t.expandWith depth openLink (s.above depth here) here.dropLast rest
      else if name.toList.contains '\x00' then .nul
      else
        match t.get? (here ++ [name]) with
        | some (.link target) =>
          match openLink s (here ++ [name]) target with
          | .done s there => t.expandWith depth openLink s there rest
          | .looped text => .looped (Pathname.joined text rest)
          | .endless => .endless
          | .nul => .nul
        | _ => t.expandWith depth openLink s (here ++ [name]) rest :=
  rfl

/-- Following names is the same where the links are and where every link is opened alike. -/
theorem expandWith_congr {depth : Nat} {openLink openLink' : Spelling → Location → String → Expansion}
    (hlinks : t.SameLinks t')
    (hopen : ∀ s link target, t.get? link = some (.link target) →
      openLink s link target = openLink' s link target)
    (s : Spelling) (here : Location) (names : List String) :
    t.expandWith depth openLink s here names = t'.expandWith depth openLink' s here names := by
  induction names generalizing s here with
  | nil => rfl
  | cons name rest ih =>
    rw [expandWith_cons, expandWith_cons, ih s here, ih (s.above depth here) here.dropLast]
    by_cases hlink : ∃ target, t.get? (here ++ [name]) = some (.link target)
    · obtain ⟨target, hnode⟩ := hlink
      rw [hnode, (hlinks _ _).mp hnode]
      simp only
      rw [hopen _ _ _ hnode]
      cases openLink' s (here ++ [name]) target with
      | done s there => simp only [ih s there]
      | looped text => rfl
      | endless => rfl
      | nul => rfl
    · -- Whatever else is there, files and directories among it, is passed by its name.
      have hother (openLink : Spelling → Location → String → Expansion) (t₀ : FileTree)
          (h₀ : ¬ ∃ target, t₀.get? (here ++ [name]) = some (.link target)) :
          (match t₀.get? (here ++ [name]) with
            | some (.link target) =>
              match openLink s (here ++ [name]) target with
              | .done s there => t₀.expandWith depth openLink s there rest
              | .looped text => .looped (Pathname.joined text rest)
              | .endless => .endless
              | .nul => .nul
            | _ => t₀.expandWith depth openLink s (here ++ [name]) rest) =
            t₀.expandWith depth openLink s (here ++ [name]) rest := by
        split
        · rename_i target hnode
          exact absurd ⟨target, hnode⟩ h₀
        · rfl
      have hlink' : ¬ ∃ target, t'.get? (here ++ [name]) = some (.link target) := by
        rintro ⟨target, hnode⟩
        exact hlink ⟨target, (hlinks _ _).mpr hnode⟩
      rw [hother openLink t hlink, hother openLink' t' hlink', ih]

/-! ## Room for opened links -/

variable {depth room : Nat} {opened : List (Spelling × Location)}

theorem rank_lt (depth : Nat) (s : Spelling) : s.rank depth < depth + 2 := by
  cases s with
  | fromRoot => exact Nat.lt_succ_self _
  | fromCurrent steps =>
    have hmin : min steps depth ≤ depth := Nat.min_le_right steps depth
    exact Nat.lt_succ_of_le (Nat.le_succ_of_le hmin)

/-- The locations of a tree, under each rank of a way to them, at which no link is being opened. -/
def unopened (t : FileTree) (depth : Nat) (opened : List (Spelling × Location)) : Finset (Nat × Location) :=
  (Finset.range (depth + 2) ×ˢ (t.entries.map Prod.fst).toFinset) \ (opened.map (wayKey depth)).toFinset

theorem mem_entries_of_link {l : Location} {target : String}
    (h : t.get? l = some (.link target)) : l ∈ t.entries.map Prod.fst := by
  have hroot : l ≠ [] := ne_nil_of_get? h Node.noConfusion
  exact List.mem_map.mpr ⟨_, mem_entries_of_get? hroot h, rfl⟩

theorem card_unopened_cons_lt {s : Spelling} {l : Location} {target : String}
    (h : t.get? l = some (.link target)) (hl : isOpen depth opened s l = false) :
    (t.unopened depth ((s, l) :: opened)).card < (t.unopened depth opened).card := by
  have hnew : wayKey depth (s, l) ∉ opened.map (wayKey depth) := by
    intro hmem
    rw [isOpen, List.contains_iff_mem.mpr hmem] at hl
    cases hl
  refine Finset.card_lt_card (Finset.ssubset_iff_of_subset ?_ |>.mpr ⟨wayKey depth (s, l), ?_, ?_⟩)
  · intro way hway
    simp only [unopened, List.map_cons, Finset.mem_sdiff, List.mem_toFinset, List.mem_cons, not_or] at hway ⊢
    exact ⟨hway.1, hway.2.2⟩
  · rw [unopened, Finset.mem_sdiff, List.mem_toFinset, Finset.mem_product, Finset.mem_range,
      List.mem_toFinset]
    exact ⟨⟨rank_lt depth s, mem_entries_of_link h⟩, hnew⟩
  · simp [unopened]

/-- Where there is no room for another way every link is being opened. -/
theorem isOpen_of_card_eq_zero {s : Spelling} {l : Location} {target : String}
    (hroom : (t.unopened depth opened).card = 0) (h : t.get? l = some (.link target)) :
    isOpen depth opened s l = true := by
  cases hopen : isOpen depth opened s l with
  | true => rfl
  | false =>
    have hlt := card_unopened_cons_lt h hopen
    omega

/-- Room for every link that is not opened yet, under each rank, is room enough. -/
theorem expand_succ (h : (t.unopened depth opened).card ≤ room) :
    t.expand depth (room + 1) opened = t.expand depth room opened := by
  induction room generalizing opened with
  | zero =>
    funext s here names
    refine expandWith_congr (fun _ _ => Iff.rfl) ?_ s here names
    intro s link target hlink
    rw [if_pos (isOpen_of_card_eq_zero (Nat.le_zero.mp h) hlink)]
  | succ room ih =>
    funext s here names
    refine expandWith_congr (fun _ _ => Iff.rfl) ?_ s here names
    intro s link target hlink
    split
    · rfl
    · rename_i hnew
      have hlt := card_unopened_cons_lt hlink (Bool.eq_false_iff.mpr hnew)
      rw [ih (by omega)]

theorem expand_add (more : Nat) (h : (t.unopened depth opened).card ≤ room) :
    t.expand depth (room + more) opened = t.expand depth room opened := by
  induction more with
  | zero => rfl
  | succ more ih => rw [← Nat.add_assoc, expand_succ (by omega), ih]

theorem expand_congr (hlinks : t.SameLinks t') (depth room : Nat) (opened : List (Spelling × Location)) :
    t.expand depth room opened = t'.expand depth room opened := by
  induction room generalizing opened with
  | zero =>
    funext s here names
    exact expandWith_congr hlinks (fun _ _ _ _ => rfl) s here names
  | succ room ih =>
    funext s here names
    refine expandWith_congr hlinks ?_ s here names
    intro s link target _
    simp only [ih]

theorem card_unopened_le (t : FileTree) (depth : Nat) (opened : List (Spelling × Location)) :
    (t.unopened depth opened).card ≤ t.room depth := by
  calc (t.unopened depth opened).card
      ≤ (Finset.range (depth + 2) ×ˢ (t.entries.map Prod.fst).toFinset).card :=
        Finset.card_le_card Finset.sdiff_subset
    _ = (depth + 2) * (t.entries.map Prod.fst).toFinset.card := by
        rw [Finset.card_product, Finset.card_range]
    _ ≤ (depth + 2) * (t.entries.map Prod.fst).length := Nat.mul_le_mul_left _ (List.toFinset_card_le _)
    _ = t.room depth := by rw [List.length_map, room, size]

/-- **Trees with the same links follow every path alike.** -/
theorem expand_room_congr (hlinks : t.SameLinks t') (depth : Nat) :
    t.expand depth (t.room depth) [] = t'.expand depth (t'.room depth) [] := by
  calc t.expand depth (t.room depth) []
      = t.expand depth (t.room depth + t'.room depth) [] :=
        (expand_add _ (card_unopened_le t depth [])).symm
    _ = t'.expand depth (t'.room depth + t.room depth) [] := by
        rw [expand_congr hlinks, Nat.add_comm]
    _ = t'.expand depth (t'.room depth) [] := expand_add _ (card_unopened_le t' depth [])

end FileTree

theorem Machine.expansion_congr {m : Machine} {t' : FileTree} (hlinks : m.tree.SameLinks t') (p : Pathname) :
    (m.withTree t').expansion p = m.expansion p :=
  (congrFun (congrFun (congrFun (FileTree.expand_room_congr hlinks m.current.length) _) _) _).symm

theorem FileTree.Fillable.sameLinks_insert {t : FileTree} {l : Location} {n : Node} (hl : t.Fillable l)
    (hn : ∀ target, n ≠ .link target) : t.SameLinks (t.insert l n) := by
  intro l' target
  constructor
  · intro h
    exact hl.get?_insert h fun _ => Node.noConfusion
  · intro h
    by_cases heq : l' = l
    · rw [heq, get?_insert_self t hl.1, Option.some.injEq] at h
      exact absurd h (hn target)
    · rw [get?_insert_of_ne t heq] at h
      exact h

/-- The making of directories adds and removes no link. -/
theorem Machine.Makes.sameLinks {m : Machine} {p : Pathname} {t : FileTree} (h : m.Makes p t) :
    m.tree.SameLinks t := by
  intro l target
  rcases h.get? l with hsame | ⟨hbefore, hnow, _⟩
  · rw [hsame]
  · simp [hbefore, hnow]

/-- A path that was resolved to a location is resolved to it again while the links are the same and the
location can be reached. -/
theorem Machine.resolve_congr {m : Machine} {t' : FileTree} {p : Pathname} {l : Location} {place : Place}
    (hlinks : m.tree.SameLinks t') (h : m.resolve p = .ok l)
    (hthere : (m.withTree t').locate true (.ofLocation l) = .ok place) :
    (m.withTree t').resolve p = .ok l := by
  unfold resolve at h ⊢
  rw [expansion_congr hlinks p]
  split at h
  · exact h
  · cases h
  · cases h
  · rename_i text _
    simp only at h ⊢
    have hl : l = Location.ofText text := by
      split at h
      · cases h
      · cases h
      · exact (Except.ok.inj h).symm
    rw [← hl, hthere]

end ArtifactIdentity
