import ArtifactIdentity.Proofs.Files.Resolves

/-!
# What a path without a resolution comes to

Following the names of a path ends in one of three ways. It comes out at the location that the path resolves to,
it comes to a name that holds the character NUL, or it goes in circles. In circles it goes just where it meets a
link that it meets again on the path of that link: a way that ends opens a number of links, and to open a link
that is met takes fewer than the whole way does, so such a link would take fewer than it takes itself.
-/

namespace ArtifactIdentity

/-- Following names comes out nowhere, since a link leads back to itself. -/
def Expansion.isCircle : Expansion → Bool
  | .looped _ | .endless => true
  | .done .. | .nul => false

namespace FileTree

open Machine (IsEntryName)

/-- Following names from a location ends at a location, or at a name that holds the character NUL, while a number
of links is opened. The name may stand on the path of a link. -/
inductive Ends (t : FileTree) : Nat → Location → List String → Option Location → Prop
  | done (l : Location) : Ends t 0 l [] (some l)
  | nul {l : Location} {name : String} {rest : List String} (hsaid : ¬ Pathname.SaysNothing name)
      (hup : name ≠ Pathname.up) (hnul : name.toList.contains '\x00' = true) : Ends t 0 l (name :: rest) none
  | here {k : Nat} {l : Location} {name : String} {rest : List String} {last : Option Location}
      (hsaid : Pathname.SaysNothing name) (h : Ends t k l rest last) : Ends t k l (name :: rest) last
  | up {k : Nat} {l : Location} {rest : List String} {last : Option Location}
      (h : Ends t k l.dropLast rest last) : Ends t k l (Pathname.up :: rest) last
  | plain {k : Nat} {l : Location} {name : String} {rest : List String} {last : Option Location}
      (hname : IsEntryName name) (hnode : ∀ target, t.get? (l ++ [name]) ≠ some (.link target))
      (h : Ends t k (l ++ [name]) rest last) : Ends t k l (name :: rest) last
  | inside {k : Nat} {l : Location} {name target : String} {rest : List String} (hname : IsEntryName name)
      (hnode : t.get? (l ++ [name]) = some (.link target))
      (hopen : Ends t k (linkStart l target) (linkNames target) none) : Ends t (k + 1) l (name :: rest) none
  | behind {k k' : Nat} {l there : Location} {name target : String} {rest : List String}
      {last : Option Location} (hname : IsEntryName name)
      (hnode : t.get? (l ++ [name]) = some (.link target))
      (hopen : Ends t k (linkStart l target) (linkNames target) (some there)) (h : Ends t k' there rest last) :
      Ends t (k + k' + 1) l (name :: rest) last

/-- Following names from a location meets a link with its path. It may be met on the path of another link. -/
inductive Meets (t : FileTree) : Location → List String → Location → String → Prop
  | here {l link : Location} {name : String} {rest : List String} {path : String}
      (hsaid : Pathname.SaysNothing name) (h : Meets t l rest link path) : Meets t l (name :: rest) link path
  | up {l link : Location} {rest : List String} {path : String} (h : Meets t l.dropLast rest link path) :
      Meets t l (Pathname.up :: rest) link path
  | plain {l link : Location} {name path : String} {rest : List String} (hname : IsEntryName name)
      (hnode : ∀ target, t.get? (l ++ [name]) ≠ some (.link target))
      (h : Meets t (l ++ [name]) rest link path) : Meets t l (name :: rest) link path
  | link {l : Location} {name path : String} {rest : List String} (hname : IsEntryName name)
      (hnode : t.get? (l ++ [name]) = some (.link path)) : Meets t l (name :: rest) (l ++ [name]) path
  | inside {l link : Location} {name target path : String} {rest : List String} (hname : IsEntryName name)
      (hnode : t.get? (l ++ [name]) = some (.link target))
      (h : Meets t (linkStart l target) (linkNames target) link path) : Meets t l (name :: rest) link path
  | behind {k : Nat} {l link there : Location} {name target path : String} {rest : List String}
      (hname : IsEntryName name) (hnode : t.get? (l ++ [name]) = some (.link target))
      (hopen : t.Resolves k (linkStart l target) (linkNames target) there) (h : Meets t there rest link path) :
      Meets t l (name :: rest) link path

/-- A link is met that is met again on its own path. -/
def Circles (t : FileTree) (l : Location) (names : List String) : Prop :=
  ∃ link path, t.Meets l names link path ∧ t.Meets (linkStart link.dropLast path) (linkNames path) link path

variable {t : FileTree} {k k' depth room : Nat} {l link link' : Location} {last last' : Option Location}
  {names rest : List String} {name path path' : String} {s s' : Spelling} {opened : List (Spelling × Location)}

/-! ## One end -/

theorem Resolves.ends {there : Location} (h : t.Resolves k l names there) : t.Ends k l names (some there) := by
  induction h with
  | done l => exact .done l
  | here hsaid _ ih => exact .here hsaid ih
  | up _ ih => exact .up ih
  | plain hname hnode _ ih => exact .plain hname hnode ih
  | link hname hnode _ _ ihopen ih => exact .behind hname hnode ihopen ih

/-- How following names goes on at a name. -/
theorem Ends.of_cons (h : t.Ends k l (name :: rest) last) :
    if Pathname.SaysNothing name then t.Ends k l rest last
    else if name = Pathname.up then t.Ends k l.dropLast rest last
    else if name.toList.contains '\x00' then k = 0 ∧ last = none
    else
      match t.get? (l ++ [name]) with
      | some (.link target) =>
        (∃ k₁, k = k₁ + 1 ∧ last = none ∧ t.Ends k₁ (linkStart l target) (linkNames target) none) ∨
          ∃ k₁ k₂ there, k = k₁ + k₂ + 1 ∧ t.Ends k₁ (linkStart l target) (linkNames target) (some there) ∧
            t.Ends k₂ there rest last
      | _ => t.Ends k (l ++ [name]) rest last := by
  cases h with
  | nul hsaid hup hnul =>
    rw [if_neg hsaid, if_neg hup, if_pos hnul]
    exact ⟨rfl, rfl⟩
  | here hsaid h =>
    rw [if_pos hsaid]
    exact h
  | up h =>
    rw [if_neg Pathname.not_saysNothing_up, if_pos rfl]
    exact h
  | plain hname hnode h =>
    rw [if_neg hname.1, if_neg hname.2.1, if_neg (Bool.eq_false_iff.mp hname.2.2)]
    split
    · rename_i target hlink
      exact absurd hlink (hnode target)
    · exact h
  | inside hname hnode hopen =>
    rw [if_neg hname.1, if_neg hname.2.1, if_neg (Bool.eq_false_iff.mp hname.2.2), hnode]
    exact Or.inl ⟨_, rfl, rfl, hopen⟩
  | behind hname hnode hopen h =>
    rw [if_neg hname.1, if_neg hname.2.1, if_neg (Bool.eq_false_iff.mp hname.2.2), hnode]
    exact Or.inr ⟨_, _, _, rfl, hopen, h⟩

theorem Ends.of_plain (hname : IsEntryName name)
    (hnode : ∀ target, t.get? (l ++ [name]) ≠ some (.link target)) (h : t.Ends k l (name :: rest) last) :
    t.Ends k (l ++ [name]) rest last := by
  have hnext := h.of_cons
  rw [if_neg hname.1, if_neg hname.2.1, if_neg (Bool.eq_false_iff.mp hname.2.2)] at hnext
  split at hnext
  · rename_i target hlink
    exact absurd hlink (hnode target)
  · exact hnext

theorem Ends.of_link (hname : IsEntryName name) (hnode : t.get? (l ++ [name]) = some (.link path))
    (h : t.Ends k l (name :: rest) last) :
    (∃ k₁, k = k₁ + 1 ∧ last = none ∧ t.Ends k₁ (linkStart l path) (linkNames path) none) ∨
      ∃ k₁ k₂ there, k = k₁ + k₂ + 1 ∧ t.Ends k₁ (linkStart l path) (linkNames path) (some there) ∧
        t.Ends k₂ there rest last := by
  have hnext := h.of_cons
  rw [if_neg hname.1, if_neg hname.2.1, if_neg (Bool.eq_false_iff.mp hname.2.2), hnode] at hnext
  exact hnext

/-- **Following names has one end at most, and opens one number of links before it.** -/
theorem Ends.unique (h : t.Ends k l names last) (h' : t.Ends k' l names last') : k' = k ∧ last' = last := by
  induction h generalizing k' last' with
  | done l =>
    cases h'
    exact ⟨rfl, rfl⟩
  | nul hsaid hup hnul =>
    have hnext := h'.of_cons
    rw [if_neg hsaid, if_neg hup, if_pos hnul] at hnext
    exact hnext
  | here hsaid _ ih =>
    have hnext := h'.of_cons
    rw [if_pos hsaid] at hnext
    exact ih hnext
  | up _ ih =>
    have hnext := h'.of_cons
    rw [if_neg Pathname.not_saysNothing_up, if_pos rfl] at hnext
    exact ih hnext
  | plain hname hnode _ ih => exact ih (h'.of_plain hname hnode)
  | inside hname hnode _ ihopen =>
    rcases h'.of_link hname hnode with ⟨k₁, rfl, rfl, hopen⟩ | ⟨k₁, k₂, there, rfl, hopen, -⟩
    · exact ⟨congrArg Nat.succ (ihopen hopen).1, rfl⟩
    · cases (ihopen hopen).2
  | behind hname hnode _ _ ihopen ih =>
    rcases h'.of_link hname hnode with ⟨k₁, rfl, rfl, hopen⟩ | ⟨k₁, k₂, there, rfl, hopen, hrest⟩
    · cases (ihopen hopen).2
    · obtain ⟨rfl, hthere⟩ := ihopen hopen
      obtain rfl := Option.some.inj hthere
      obtain ⟨rfl, rfl⟩ := ih hrest
      exact ⟨rfl, rfl⟩

/-! ## Links that are met -/

theorem Meets.node (h : t.Meets l names link path) : t.get? link = some (.link path) := by
  induction h with
  | here _ _ ih | up _ ih | plain _ _ _ ih | inside _ _ _ ih | behind _ _ _ _ ih => exact ih
  | link _ hnode => exact hnode

/-- What is met on the path of a link that is met is met. -/
theorem Meets.trans (h : t.Meets l names link path)
    (h' : t.Meets (linkStart link.dropLast path) (linkNames path) link' path') :
    t.Meets l names link' path' := by
  induction h with
  | here hsaid _ ih => exact .here hsaid (ih h')
  | up _ ih => exact .up (ih h')
  | plain hname hnode _ ih => exact .plain hname hnode (ih h')
  | link hname hnode =>
    rw [List.dropLast_concat] at h'
    exact .inside hname hnode h'
  | inside hname hnode _ ih => exact .inside hname hnode (ih h')
  | behind hname hnode hopen _ ih => exact .behind hname hnode hopen (ih h')

/-- On a way that ends the path of every link that is met ends too, and opens fewer links. -/
theorem Meets.ends (h : t.Meets l names link path) (hends : t.Ends k l names last) :
    ∃ k' last', k' < k ∧ t.Ends k' (linkStart link.dropLast path) (linkNames path) last' := by
  induction h generalizing k last with
  | here hsaid _ ih =>
    have hnext := hends.of_cons
    rw [if_pos hsaid] at hnext
    exact ih hnext
  | up _ ih =>
    have hnext := hends.of_cons
    rw [if_neg Pathname.not_saysNothing_up, if_pos rfl] at hnext
    exact ih hnext
  | plain hname hnode _ ih => exact ih (hends.of_plain hname hnode)
  | link hname hnode =>
    rw [List.dropLast_concat]
    rcases hends.of_link hname hnode with ⟨k₁, rfl, -, hopen⟩ | ⟨k₁, k₂, there, rfl, hopen, -⟩
    · exact ⟨k₁, none, by omega, hopen⟩
    · exact ⟨k₁, some there, by omega, hopen⟩
  | inside hname hnode _ ih =>
    rcases hends.of_link hname hnode with ⟨k₁, rfl, -, hopen⟩ | ⟨k₁, k₂, there, rfl, hopen, -⟩
    · obtain ⟨k', last', hless, hlink⟩ := ih hopen
      exact ⟨k', last', by omega, hlink⟩
    · obtain ⟨k', last', hless, hlink⟩ := ih hopen
      exact ⟨k', last', by omega, hlink⟩
  | behind hname hnode hresolves _ ih =>
    rcases hends.of_link hname hnode with ⟨k₁, rfl, -, hopen⟩ | ⟨k₁, k₂, there, rfl, hopen, hrest⟩
    · cases (hresolves.ends.unique hopen).2
    · obtain rfl := Option.some.inj (hresolves.ends.unique hopen).2
      obtain ⟨k', last', hless, hlink⟩ := ih hrest
      exact ⟨k', last', by omega, hlink⟩

/-- **A way in circles has no end.** -/
theorem Circles.not_ends (h : t.Circles l names) : ¬ t.Ends k l names last := by
  intro hends
  obtain ⟨link, path, hmeets, hagain⟩ := h
  obtain ⟨k₁, _, -, hlink⟩ := hmeets.ends hends
  obtain ⟨k₂, _, hless, hinner⟩ := hagain.ends hlink
  have hsame := (hlink.unique hinner).1
  omega

theorem Circles.of_meets (hmeets : t.Meets l names link path)
    (h : t.Circles (linkStart link.dropLast path) (linkNames path)) : t.Circles l names := by
  obtain ⟨inner, target, hinner, hagain⟩ := h
  exact ⟨inner, target, hmeets.trans hinner, hagain⟩

/-! ## Walks -/

/-- **A walk to a directory goes a way that ends there**, or at a name that holds the character NUL. -/
theorem Leads.ends {there : Location} (h : t.Leads true k l names (.found there .directory)) :
    ∃ k' last, t.Ends k' l names last ∧ (last = none ∨ last = some there) := by
  -- A link takes one from the number of links to follow, so the induction is on that and inside it on the names.
  induction k using Nat.strongRecOn generalizing l names there with
  | _ k outer =>
    induction names generalizing l with
    | nil =>
      cases h
      exact ⟨0, some there, .done there, Or.inr rfl⟩
    | cons name rest ih =>
      have hnul (hsaid : ¬ Pathname.SaysNothing name) (hup : name ≠ Pathname.up)
          (hholds : ¬ name.toList.contains '\x00' = false) : t.Ends 0 l (name :: rest) none :=
        .nul hsaid hup (Bool.not_eq_false _ ▸ hholds)
      cases h with
      | here hsaid h =>
        obtain ⟨k', last, hends, hlast⟩ := ih h
        exact ⟨k', last, .here hsaid hends, hlast⟩
      | up h =>
        obtain ⟨k', last, hends, hlast⟩ := ih h
        exact ⟨k', last, .up hends, hlast⟩
      | enter hsaid hup hnode h =>
        by_cases hclean : name.toList.contains '\x00' = false
        · obtain ⟨k', last, hends, hlast⟩ := ih h
          exact ⟨k', last, .plain ⟨hsaid, hup, hclean⟩ (by simp [hnode]) hends, hlast⟩
        · exact ⟨0, none, hnul hsaid hup hclean, Or.inl rfl⟩
      | follow hsaid hup hnode _ h =>
        by_cases hclean : name.toList.contains '\x00' = false
        · have hname : IsEntryName name := ⟨hsaid, hup, hclean⟩
          obtain ⟨k₁, k₂, middle, rfl, h₁, h₂⟩ := h.behind_link
          obtain ⟨k', last, hopen, rfl | rfl⟩ := outer k₁ (by omega) h₁
          · exact ⟨k' + 1, none, .inside hname hnode hopen, Or.inl rfl⟩
          · obtain ⟨k'', last, hrest, hlast⟩ := outer k₂ (by omega) h₂
            exact ⟨k' + k'' + 1, last, .behind hname hnode hopen hrest, hlast⟩
        · exact ⟨0, none, hnul hsaid hup hclean, Or.inl rfl⟩

/-! ## The function -/

theorem resolves_of_opener {there : Location} (h : t.opener depth room opened s link path = .done s' there) :
    ∃ k, t.Resolves k (linkStart link.dropLast path) (linkNames path) there := by
  obtain ⟨_, -, _, hinside⟩ := expand_of_opener (fun _ => reopened_ne_done) h
  exact resolves_of_expand hinside

/-- A name that holds NUL is come to where that is so on the paths of the links that are opened. -/
theorem ends_of_expandWith {openLink : Spelling → Location → String → Expansion}
    (hdone : ∀ s link target s' there, openLink s link target = .done s' there →
      ∃ k, t.Resolves k (linkStart link.dropLast target) (linkNames target) there)
    (hnul : ∀ s link target, openLink s link target = .nul →
      ∃ k, t.Ends k (linkStart link.dropLast target) (linkNames target) none)
    (h : t.expandWith depth openLink s l names = .nul) : ∃ k, t.Ends k l names none := by
  fun_induction expandWith t depth openLink s l names with
  | case1 | case6 | case7 => cases h
  | case2 s here name rest hsaid ih =>
    obtain ⟨k, hk⟩ := ih h
    exact ⟨k, .here hsaid hk⟩
  | case3 s here rest _ ih =>
    obtain ⟨k, hk⟩ := ih h
    exact ⟨k, .up hk⟩
  | case4 s here name rest hsaid hup hcontains => exact ⟨0, .nul hsaid hup hcontains⟩
  | case5 s here name rest hsaid hup hclean l target hnode s₁ there hthere ih =>
    have hname : IsEntryName name := ⟨hsaid, hup, by simpa using hclean⟩
    obtain ⟨k₁, hopen⟩ := hdone s (here ++ [name]) _ s₁ there hthere
    rw [List.dropLast_concat] at hopen
    obtain ⟨k₂, hrest⟩ := ih h
    exact ⟨k₁ + k₂ + 1, .behind hname hnode hopen.ends hrest⟩
  | case8 s here name rest hsaid hup hclean l target hnode hinner =>
    have hname : IsEntryName name := ⟨hsaid, hup, by simpa using hclean⟩
    obtain ⟨k₁, hopen⟩ := hnul s (here ++ [name]) _ hinner
    rw [List.dropLast_concat] at hopen
    exact ⟨k₁ + 1, .inside hname hnode hopen⟩
  | case9 s here name rest hsaid hup hclean l hnode ih =>
    have hname : IsEntryName name := ⟨hsaid, hup, by simpa using hclean⟩
    obtain ⟨k, hk⟩ := ih h
    exact ⟨k, .plain hname hnode hk⟩

theorem ends_of_expand (h : t.expand depth room opened s l names = .nul) : ∃ k, t.Ends k l names none := by
  induction room using Nat.strongRecOn generalizing opened s l names with
  | _ room ih =>
    rw [expand_eq_expandWith] at h
    refine ends_of_expandWith (fun s link target s' there => resolves_of_opener) ?_ h
    intro s link target hinner
    obtain ⟨room', hless, _, hinside⟩ := expand_of_opener (fun _ => reopened_ne_nul) hinner
    exact ih room' hless hinside

/-- Where following names goes in circles, a link is met whose opening does. -/
theorem exists_meets_of_expandWith {openLink : Spelling → Location → String → Expansion}
    (hdone : ∀ s link target s' there, openLink s link target = .done s' there →
      ∃ k, t.Resolves k (linkStart link.dropLast target) (linkNames target) there)
    (h : (t.expandWith depth openLink s l names).isCircle = true) :
    ∃ s' link path, t.Meets l names link path ∧ (openLink s' link path).isCircle = true := by
  fun_induction expandWith t depth openLink s l names with
  | case1 | case4 | case8 => cases h
  | case2 s here name rest hsaid ih =>
    obtain ⟨s', link, path, hmeets, hopen⟩ := ih h
    exact ⟨s', link, path, .here hsaid hmeets, hopen⟩
  | case3 s here rest _ ih =>
    obtain ⟨s', link, path, hmeets, hopen⟩ := ih h
    exact ⟨s', link, path, .up hmeets, hopen⟩
  | case5 s here name rest hsaid hup hclean l target hnode s₁ there hthere ih =>
    have hname : IsEntryName name := ⟨hsaid, hup, by simpa using hclean⟩
    obtain ⟨k, hresolves⟩ := hdone s (here ++ [name]) _ s₁ there hthere
    rw [List.dropLast_concat] at hresolves
    obtain ⟨s', link, path, hmeets, hopen⟩ := ih h
    exact ⟨s', link, path, .behind hname hnode hresolves hmeets, hopen⟩
  | case6 s here name rest hsaid hup hclean l target hnode text hinner =>
    have hname : IsEntryName name := ⟨hsaid, hup, by simpa using hclean⟩
    refine ⟨s, _, target, .link hname hnode, ?_⟩
    rw [hinner]
    rfl
  | case7 s here name rest hsaid hup hclean l target hnode hinner =>
    have hname : IsEntryName name := ⟨hsaid, hup, by simpa using hclean⟩
    refine ⟨s, _, target, .link hname hnode, ?_⟩
    rw [hinner]
    rfl
  | case9 s here name rest hsaid hup hclean l hnode ih =>
    have hname : IsEntryName name := ⟨hsaid, hup, by simpa using hclean⟩
    obtain ⟨s', link, path, hmeets, hopen⟩ := ih h
    exact ⟨s', link, path, .plain hname hnode hmeets, hopen⟩

/-- A way that is given up meets a link that is being opened, or goes in circles by itself. -/
theorem circles_of_expand (hroom : (t.unopened depth opened).card ≤ room)
    (h : (t.expand depth room opened s l names).isCircle = true) :
    (∃ way ∈ opened, ∃ path, t.Meets l names way.2 path) ∨ t.Circles l names := by
  induction room generalizing opened s l names with
  | zero =>
    rw [expand_eq_expandWith] at h
    obtain ⟨s', link, path, hmeets, -⟩ :=
      exists_meets_of_expandWith (fun s link target s' there => resolves_of_opener) h
    -- There is no room for another link, so this one is being opened.
    obtain ⟨way, hway, rfl⟩ :=
      exists_of_isOpen (isOpen_of_card_eq_zero (s := s') (Nat.le_zero.mp hroom) hmeets.node)
    exact Or.inl ⟨way, hway, path, hmeets⟩
  | succ room ih =>
    rw [expand_eq_expandWith] at h
    obtain ⟨s', link, path, hmeets, hopen⟩ :=
      exists_meets_of_expandWith (fun s link target s' there => resolves_of_opener) h
    by_cases hopened : isOpen depth opened s' link = true
    · obtain ⟨way, hway, rfl⟩ := exists_of_isOpen hopened
      exact Or.inl ⟨way, hway, path, hmeets⟩
    have hnew := Bool.eq_false_iff.mpr hopened
    rw [t.opener_of_new depth room path hnew] at hopen
    have hlt := card_unopened_cons_lt hmeets.node hnew
    rcases ih (by omega) hopen with ⟨way, hway, path', hmeets'⟩ | hcircles
    · rcases List.mem_cons.mp hway with rfl | hway
      · obtain rfl : path = path' :=
          Node.link.inj (Option.some.inj (hmeets.node.symm.trans hmeets'.node))
        exact Or.inr ⟨_, path, hmeets, hmeets'⟩
      · exact Or.inl ⟨way, hway, path', hmeets.trans hmeets'⟩
    · exact Or.inr (.of_meets hmeets hcircles)

/-- **Following names comes to the character NUL exactly where it ends there.** -/
theorem expand_eq_nul_iff :
    t.expand depth (t.room depth) [] s l names = .nul ↔ ∃ k, t.Ends k l names none := by
  constructor
  · exact ends_of_expand
  · rintro ⟨k, hends⟩
    by_cases hcircle : (t.expand depth (t.room depth) [] s l names).isCircle = true
    · rcases circles_of_expand (card_unopened_le t depth []) hcircle with ⟨way, hway, -⟩ | hcircles
      · cases hway
      · exact absurd hends hcircles.not_ends
    cases hexpand : t.expand depth (t.room depth) [] s l names with
    | nul => rfl
    | done s' there =>
      obtain ⟨k', hresolves⟩ := resolves_of_expand hexpand
      cases (hends.unique hresolves.ends).2
    | looped | endless =>
      rw [hexpand] at hcircle
      exact absurd rfl hcircle

/-- **Following names goes in circles exactly where it meets a link that is met again on its own path.** -/
theorem isCircle_expand_iff :
    (t.expand depth (t.room depth) [] s l names).isCircle = true ↔ t.Circles l names := by
  constructor
  · intro hcircle
    rcases circles_of_expand (card_unopened_le t depth []) hcircle with ⟨way, hway, -⟩ | hcircles
    · cases hway
    · exact hcircles
  · intro hcircles
    cases hexpand : t.expand depth (t.room depth) [] s l names with
    | looped | endless => rfl
    | done s' there =>
      obtain ⟨k, hresolves⟩ := resolves_of_expand hexpand
      exact absurd hresolves.ends hcircles.not_ends
    | nul =>
      obtain ⟨k, hends⟩ := ends_of_expand hexpand
      exact absurd hends hcircles.not_ends

/-! ## Ways from the root -/

/-- A link that is come to from the root is open only by that way. -/
theorem mem_of_isOpen_fromRoot (h : isOpen depth opened .fromRoot link = true) :
    (Spelling.fromRoot, link) ∈ opened := by
  obtain ⟨⟨s, l⟩, hway, hkey⟩ := List.mem_map.mp (List.contains_iff_mem.mp h)
  obtain ⟨hrank, rfl⟩ := Prod.mk.inj hkey
  cases s with
  | fromRoot => exact hway
  | fromCurrent steps =>
    have hmin : min steps depth = depth + 1 := hrank
    omega

theorem behind_fromRoot (target : String) : Spelling.fromRoot.behind target = .fromRoot := by
  unfold Spelling.behind
  split
  · rfl
  · rfl

/-- A way from the root stays one where links keep it so. -/
theorem fromRoot_of_expandWith {openLink : Spelling → Location → String → Expansion} {there : Location}
    (hopen : ∀ link target s' there, openLink .fromRoot link target = .done s' there → s' = .fromRoot)
    (h : t.expandWith depth openLink .fromRoot l names = .done s' there) : s' = .fromRoot := by
  induction names generalizing l with
  | nil => exact (Expansion.done.inj h).1.symm
  | cons name rest ih =>
    rw [expandWith_cons] at h
    split at h
    · exact ih h
    split at h
    · exact ih h
    split at h
    · cases h
    split at h
    · split at h
      · rename_i hthere
        obtain rfl := hopen _ _ _ _ hthere
        exact ih h
      · cases h
      · cases h
      · cases h
    · exact ih h

theorem fromRoot_of_expand {there : Location}
    (h : t.expand depth room opened .fromRoot l names = .done s' there) : s' = .fromRoot := by
  induction room using Nat.strongRecOn generalizing opened l names s' there with
  | _ room ih =>
    rw [expand_eq_expandWith] at h
    refine fromRoot_of_expandWith ?_ h
    intro link target s' there hthere
    obtain ⟨room', hless, _, hinside⟩ := expand_of_opener (fun _ => reopened_ne_done) hthere
    rw [behind_fromRoot] at hinside
    exact ih room' hless hinside

theorem fromRoot_of_opener {there : Location}
    (h : t.opener depth room opened .fromRoot link path = .done s' there) : s' = .fromRoot := by
  obtain ⟨_, -, _, hinside⟩ := expand_of_opener (fun _ => reopened_ne_done) h
  rw [behind_fromRoot] at hinside
  exact fromRoot_of_expand hinside

theorem expandWith_fromRoot_ne_endless {openLink : Spelling → Location → String → Expansion}
    (hdone : ∀ link target s' there, openLink .fromRoot link target = .done s' there → s' = .fromRoot)
    (hopen : ∀ link target, t.get? link = some (.link target) → openLink .fromRoot link target ≠ .endless) :
    t.expandWith depth openLink .fromRoot l names ≠ .endless := by
  induction names generalizing l with
  | nil => exact Expansion.noConfusion
  | cons name rest ih =>
    rw [expandWith_cons]
    split
    · exact ih
    split
    · exact ih
    split
    · exact Expansion.noConfusion
    split
    · rename_i target hnode
      split
      · rename_i hthere
        obtain rfl := hdone _ _ _ _ hthere
        exact ih
      · exact Expansion.noConfusion
      · rename_i hinner
        exact absurd hinner (hopen _ _ hnode)
      · exact Expansion.noConfusion
    · exact ih

/-- **A way from the root comes to an end, or to one of its links again as it came to it before.** -/
theorem expand_fromRoot_ne_endless (hroom : (t.unopened depth opened).card ≤ room) :
    t.expand depth room opened .fromRoot l names ≠ .endless := by
  have hreopened {link : Location} {opened : List (Spelling × Location)}
      (h : isOpen depth opened .fromRoot link = true) : reopened opened .fromRoot link ≠ .endless := by
    rw [reopened, if_pos (List.contains_iff_mem.mpr (mem_of_isOpen_fromRoot h))]
    exact Expansion.noConfusion
  induction room generalizing opened l names with
  | zero =>
    rw [expand_eq_expandWith]
    apply expandWith_fromRoot_ne_endless fun _ _ _ _ => fromRoot_of_opener
    intro link target hnode
    exact hreopened (isOpen_of_card_eq_zero (Nat.le_zero.mp hroom) hnode)
  | succ room ih =>
    rw [expand_eq_expandWith]
    apply expandWith_fromRoot_ne_endless fun _ _ _ _ => fromRoot_of_opener
    intro link target hnode
    rw [opener, behind_fromRoot]
    split
    · rename_i hopen
      exact hreopened hopen
    · rename_i hnew
      have hlt := card_unopened_cons_lt hnode (Bool.eq_false_iff.mpr hnew)
      exact ih (by omega)

end FileTree

namespace Machine

open FileTree

variable {m : Machine} {p : Pathname} {l : Location} {e : FileError}

/-- Following the names of a path ends at a name that holds the character NUL. -/
def ReachesNul (m : Machine) (p : Pathname) : Prop :=
  ∃ k, m.tree.Ends k (m.start p) p.parts none

/-- A path leads back to one of its links, each time from further above the root. -/
def Endless (m : Machine) (p : Pathname) : Prop :=
  m.expansion p = .endless

/-- The location that a path in circles is read as, by its names as they are written. -/
def ReadAs (m : Machine) (p : Pathname) (l : Location) : Prop :=
  ∃ text, m.expansion p = .looped text ∧ l = Location.ofText text

theorem reachesNul_iff : m.ReachesNul p ↔ m.expansion p = .nul :=
  expand_eq_nul_iff.symm

/-- **The links of a path lead back to one of themselves where one is met that is met again on its own
path.** -/
theorem loops_or_endless_iff : m.Loops p ∨ m.Endless p ↔ m.tree.Circles (m.start p) p.parts := by
  have hcircle : m.Loops p ∨ m.Endless p ↔ (m.expansion p).isCircle = true := by
    unfold Loops Endless
    cases m.expansion p <;> simp [Expansion.isCircle]
  exact hcircle.trans isCircle_expand_iff

/-- **A path that leads to a directory is resolved to that directory, if it is resolved at all.** -/
theorem eq_of_resolve {last : Location} (h : m.resolve p = .ok l)
    (hp : m.locate true p = .ok (.found last .directory)) : l = last := by
  obtain ⟨_, k, _, hleads⟩ := locate_eq_ok_iff.mp hp
  obtain ⟨k', found, hends, hfound⟩ := hleads.ends
  rcases resolvesTo_or_loops h with ⟨k'', hresolves⟩ | ⟨hloops, -⟩
  · have hsame : found = some l := (hresolves.ends.unique hends).2
    rcases hfound with rfl | rfl
    · cases hsame
    · exact (Option.some.inj hsame).symm
  · exact absurd hends (loops_or_endless_iff.mp (Or.inl hloops)).not_ends

/-- A path from the root does not lead on without an end. -/
theorem not_endless_of_absolute (h : p.absolute = true) : ¬ m.Endless p := by
  unfold Endless expansion
  rw [show spelling p = .fromRoot from if_pos h]
  exact expand_fromRoot_ne_endless (card_unopened_le m.tree m.current.length [])

/-- Only a path that holds the character NUL is refused for it by a walk. -/
theorem locate_eq_embeddedNul_iff {followLast : Bool} :
    m.locate followLast p = .error .embeddedNul ↔ p.holdsNul = true := by
  unfold locate
  split
  · rename_i hnul
    simp [hnul]
  · rename_i hnul
    constructor
    · intro hwalk
      rcases walk_fails hwalk with h | h | h
      all_goals cases h
    · intro hholds
      exact absurd hholds hnul

/-- The failures of resolving a path: circles in which a walk along the names as they are written runs too, and
those without an end, and the character NUL, on the way or in those names. -/
inductive Unresolved (m : Machine) (p : Pathname) : FileError → Prop
  | circle (l : Location) (hread : m.ReadAs p l)
      (hwalk : m.locate true (.ofLocation l) = .error .tooManyLinks) : Unresolved m p .linkLoop
  | endless (h : m.Endless p) : Unresolved m p .endlessLinks
  | nul (h : m.ReachesNul p) : Unresolved m p .embeddedNul
  | written (l : Location) (hread : m.ReadAs p l) (hnul : (Pathname.ofLocation l).holdsNul = true) :
      Unresolved m p .embeddedNul

/-- **A path is refused where it has one of the failures of a path, and for that failure.** -/
theorem resolve_eq_error_iff : m.resolve p = .error e ↔ m.Unresolved p e := by
  constructor
  · intro h
    unfold resolve at h
    split at h
    · cases h
    · rename_i hnul
      obtain rfl := Except.error.inj h
      exact .nul (reachesNul_iff.mpr hnul)
    · rename_i hendless
      obtain rfl := Except.error.inj h
      exact .endless hendless
    · rename_i text hlooped
      have hread : m.ReadAs p (Location.ofText text) := ⟨text, hlooped, rfl⟩
      simp only at h
      split at h
      · rename_i hwalk
        obtain rfl := Except.error.inj h
        exact .circle _ hread hwalk
      · rename_i hwalk
        obtain rfl := Except.error.inj h
        exact .written _ hread (locate_eq_embeddedNul_iff.mp hwalk)
      · cases h
  · intro h
    cases h with
    | circle l hread hwalk =>
      obtain ⟨text, hlooped, rfl⟩ := hread
      simp only [resolve, hlooped, hwalk]
    | endless hendless =>
      rw [resolve, hendless]
    | nul hnul =>
      rw [resolve, reachesNul_iff.mp hnul]
    | written l hread hnul =>
      obtain ⟨text, hlooped, rfl⟩ := hread
      simp only [resolve, hlooped, locate_eq_embeddedNul_iff.mpr hnul]

end Machine

end ArtifactIdentity
