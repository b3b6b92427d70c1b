import ArtifactIdentity.Files.Machine

/-!
# Walks as derivations

A walk that ends somewhere is told step by step by a relation, which counts the links that are followed. The
walk of a path is the walk of its first names and then of the others from the directory reached. A node
put into a tree where there was no directory and no link changes a walk at its end only, and names of which
a tree knows nothing are on no walk that arrives.
-/

namespace ArtifactIdentity

namespace FileTree

/-- A walk from a directory along names that ends at a place and follows a number of links. -/
inductive Leads (t : FileTree) (followLast : Bool) : Nat → Location → List String → Place → Prop
  | arrived (l : Location) : Leads t followLast 0 l [] (.found l .directory)
  | here {k : Nat} {l : Location} {name : String} {rest : List String} {p : Place}
      (hsaid : Pathname.SaysNothing name) (h : Leads t followLast k l rest p) :
      Leads t followLast k l (name :: rest) p
  | up {k : Nat} {l : Location} {rest : List String} {p : Place}
      (h : Leads t followLast k l.dropLast rest p) : Leads t followLast k l (Pathname.up :: rest) p
  | enter {k : Nat} {l : Location} {name : String} {rest : List String} {p : Place}
      (hsaid : ¬ Pathname.SaysNothing name) (hup : name ≠ Pathname.up)
      (hnode : t.get? (l ++ [name]) = some .directory)
      (h : Leads t followLast k (l ++ [name]) rest p) : Leads t followLast k l (name :: rest) p
  | file {l : Location} {name : String} {data : ByteArray}
      (hsaid : ¬ Pathname.SaysNothing name) (hup : name ≠ Pathname.up)
      (hnode : t.get? (l ++ [name]) = some (.file data)) :
      Leads t followLast 0 l [name] (.found (l ++ [name]) (.file data))
  | stop {l : Location} {name target : String}
      (hsaid : ¬ Pathname.SaysNothing name) (hup : name ≠ Pathname.up)
      (hnode : t.get? (l ++ [name]) = some (.link target)) (hlast : followLast = false) :
      Leads t followLast 0 l [name] (.found (l ++ [name]) (.link target))
  | follow {k : Nat} {l : Location} {name target : String} {rest : List String} {p : Place}
      (hsaid : ¬ Pathname.SaysNothing name) (hup : name ≠ Pathname.up)
      (hnode : t.get? (l ++ [name]) = some (.link target)) (hlast : rest ≠ [] ∨ followLast = true)
      (h : Leads t followLast k (linkStart l target) (linkNames target ++ rest) p) :
      Leads t followLast (k + 1) l (name :: rest) p
  | vacant {l : Location} {name : String}
      (hsaid : ¬ Pathname.SaysNothing name) (hup : name ≠ Pathname.up)
      (hnode : t.get? (l ++ [name]) = none) : Leads t followLast 0 l [name] (.vacant (l ++ [name]))

variable {t : FileTree} {followLast : Bool} {k : Nat} {l : Location} {names : List String} {p : Place}

theorem mem_entries_of_get? {n : Node} (hl : l ≠ []) (h : t.get? l = some n) : (l, n) ∈ t.entries := by
  rw [get?, if_neg hl] at h
  exact Table.mem_of_lookup h

/-- The root is no file and no link, so what is not a directory stands in an entry. -/
theorem ne_nil_of_get? {n : Node} (h : t.get? l = some n) (hn : n ≠ .directory) : l ≠ [] := by
  rintro rfl
  rw [get?_root, Option.some.injEq] at h
  exact hn h.symm

/-! ## The relation and the function -/

theorem walk_nil (t : FileTree) (followLast : Bool) (links : Nat) (l : Location) :
    t.walk followLast links l [] = .ok (.found l .directory) := by
  cases links <;> rfl

/-- One step of a walk, whatever number of links is left. -/
theorem walk_cons (t : FileTree) (followLast : Bool) (links : Nat) (l : Location) (name : String)
    (rest : List String) :
    t.walk followLast links l (name :: rest) =
      if Pathname.SaysNothing name then t.walk followLast links l rest
      else if name = Pathname.up then t.walk followLast links l.dropLast rest
      else
        match t.get? (l ++ [name]) with
        | some .directory => t.walk followLast links (l ++ [name]) rest
        | some (.file data) =>
          if rest = [] then .ok (.found (l ++ [name]) (.file data)) else .error .notADirectory
        | some (.link target) =>
          if rest = [] && !followLast then .ok (.found (l ++ [name]) (.link target))
          else
            match links with
            | 0 => .error .tooManyLinks
            | links + 1 => t.walk followLast links (linkStart l target) (linkNames target ++ rest)
        | none => if rest = [] then .ok (.vacant (l ++ [name])) else .error .notFound := by
  cases links <;> rfl

theorem leads_of_walk {links : Nat} (h : t.walk followLast links l names = .ok p) :
    ∃ k ≤ links, t.Leads followLast k l names p := by
  -- A link may put more names in front, so the induction is on the links and inside it on the names.
  induction links using Nat.strongRecOn generalizing l names with
  | _ links outer =>
    induction names generalizing l with
    | nil =>
      rw [walk_nil] at h
      obtain rfl := Except.ok.inj h
      exact ⟨0, Nat.zero_le _, .arrived l⟩
    | cons name rest ih =>
      rw [walk_cons] at h
      by_cases hsaid : Pathname.SaysNothing name
      · rw [if_pos hsaid] at h
        obtain ⟨k, hk, hleads⟩ := ih h
        exact ⟨k, hk, .here hsaid hleads⟩
      by_cases hup : name = Pathname.up
      · rw [if_neg hsaid, if_pos hup] at h
        obtain ⟨k, hk, hleads⟩ := ih h
        exact ⟨k, hk, hup ▸ .up hleads⟩
      rw [if_neg hsaid, if_neg hup] at h
      split at h
      · rename_i hnode
        obtain ⟨k, hk, hleads⟩ := ih h
        exact ⟨k, hk, .enter hsaid hup hnode hleads⟩
      · rename_i data hnode
        split at h
        · rename_i hrest
          obtain rfl := Except.ok.inj h
          subst hrest
          exact ⟨0, Nat.zero_le _, .file hsaid hup hnode⟩
        · cases h
      · rename_i target hnode
        split at h
        · rename_i hstop
          obtain ⟨hrest, hlast⟩ : rest = [] ∧ followLast = false := by simpa using hstop
          obtain rfl := Except.ok.inj h
          subst hrest
          exact ⟨0, Nat.zero_le _, .stop hsaid hup hnode hlast⟩
        · rename_i hgo
          have hlast : rest ≠ [] ∨ followLast = true := by
            by_cases hrest : rest = []
            · exact Or.inr (by simpa [hrest] using hgo)
            · exact Or.inl hrest
          cases links with
          | zero => cases h
          | succ links =>
            obtain ⟨k, hk, hleads⟩ := outer links (Nat.lt_succ_self links) h
            exact ⟨k + 1, Nat.succ_le_succ hk, .follow hsaid hup hnode hlast hleads⟩
      · rename_i hnode
        split at h
        · rename_i hrest
          obtain rfl := Except.ok.inj h
          subst hrest
          exact ⟨0, Nat.zero_le _, .vacant hsaid hup hnode⟩
        · cases h

theorem Leads.walk {links : Nat} (h : t.Leads followLast k l names p) (hk : k ≤ links) :
    t.walk followLast links l names = .ok p := by
  induction h generalizing links with
  | arrived l => exact walk_nil t followLast links l
  | here hsaid _ ih =>
    rw [walk_cons, if_pos hsaid]
    exact ih hk
  | up _ ih =>
    rw [walk_cons, if_neg Pathname.not_saysNothing_up, if_pos rfl]
    exact ih hk
  | enter hsaid hup hnode _ ih =>
    rw [walk_cons, if_neg hsaid, if_neg hup, hnode]
    exact ih hk
  | file hsaid hup hnode =>
    rw [walk_cons, if_neg hsaid, if_neg hup, hnode]
    exact if_pos rfl
  | stop hsaid hup hnode hlast =>
    rw [walk_cons, if_neg hsaid, if_neg hup, hnode, hlast]
    exact if_pos rfl
  | follow hsaid hup hnode hlast _ ih =>
    rename_i k l name target rest p _
    have hgo : ¬ (decide (rest = []) && !followLast) = true := by
      rcases hlast with hrest | hlast
      · simp [hrest]
      · simp [hlast]
    cases links with
    | zero => omega
    | succ links =>
      rw [walk_cons, if_neg hsaid, if_neg hup, hnode]
      simp only
      rw [if_neg hgo]
      exact ih (Nat.le_of_succ_le_succ hk)
  | vacant hsaid hup hnode =>
    rw [walk_cons, if_neg hsaid, if_neg hup, hnode]
    exact if_pos rfl

/-- **A walk ends at a place exactly where the steps lead there with no more links than it may follow.** -/
theorem walk_eq_ok_iff {links : Nat} :
    t.walk followLast links l names = .ok p ↔ ∃ k ≤ links, t.Leads followLast k l names p := by
  constructor
  · exact leads_of_walk
  · rintro ⟨k, hk, h⟩
    exact h.walk hk

/-- The ways in which a walk fails. -/
theorem walk_fails {links : Nat} {e : FileError} (h : t.walk followLast links l names = .error e) :
    e = .notFound ∨ e = .notADirectory ∨ e = .tooManyLinks := by
  induction links using Nat.strongRecOn generalizing l names with
  | _ links outer =>
    induction names generalizing l with
    | nil =>
      rw [walk_nil] at h
      cases h
    | cons name rest ih =>
      rw [walk_cons] at h
      split at h
      · exact ih h
      split at h
      · exact ih h
      split at h
      · exact ih h
      · split at h
        · cases h
        · exact Or.inr (Or.inl (Except.error.inj h).symm)
      · split at h
        · cases h
        cases links with
        | zero => exact Or.inr (Or.inr (Except.error.inj h).symm)
        | succ links => exact outer links (Nat.lt_succ_self links) h
      · split at h
        · cases h
        · exact Or.inl (Except.error.inj h).symm

/-! ## Where a walk ends -/

/-- A vacant place is not the root and holds nothing. -/
theorem Leads.get?_vacant {last : Location} (h : t.Leads followLast k l names (.vacant last)) :
    last ≠ [] ∧ t.get? last = none := by
  -- The place is an index of the relation, which the induction needs as a variable.
  generalize hp : Place.vacant last = p at h
  induction h with
  | vacant _ _ hnode =>
    cases hp
    exact ⟨by simp, hnode⟩
  | here _ _ ih | up _ ih | enter _ _ _ _ ih | follow _ _ _ _ _ ih => exact ih hp
  | arrived | file | stop => cases hp

/-- A file that is found is no root and stands in the tree. -/
theorem Leads.get?_file {last : Location} {data : ByteArray}
    (h : t.Leads followLast k l names (.found last (.file data))) :
    last ≠ [] ∧ t.get? last = some (.file data) := by
  generalize hp : Place.found last (.file data) = p at h
  induction h with
  | file _ _ hnode =>
    cases hp
    exact ⟨by simp, hnode⟩
  | here _ _ ih | up _ ih | enter _ _ _ _ ih | follow _ _ _ _ _ ih => exact ih hp
  | arrived | stop | vacant => cases hp

/-- What is found without following a link in the last place is found when such links are followed. -/
theorem Leads.followed {last : Location} {n : Node} (h : t.Leads false k l names (.found last n))
    (hn : ∀ target, n ≠ .link target) : t.Leads true k l names (.found last n) := by
  generalize hp : Place.found last n = p at h
  induction h with
  | arrived l => exact .arrived l
  | here hsaid _ ih => exact .here hsaid (ih hp)
  | up _ ih => exact .up (ih hp)
  | enter hsaid hup hnode _ ih => exact .enter hsaid hup hnode (ih hp)
  | file hsaid hup hnode => exact .file hsaid hup hnode
  | stop _ _ _ _ =>
    cases hp
    exact absurd rfl (hn _)
  | follow hsaid hup hnode _ _ ih => exact .follow hsaid hup hnode (Or.inr rfl) (ih hp)
  | vacant => cases hp

/-- A directory that is found when links are followed, or a link to it, is found when the last one is
not. -/
theorem Leads.unfollowed {last : Location} (h : t.Leads true k l names (.found last .directory)) :
    ∃ k' ≤ k, ∃ last' n, t.Leads false k' l names (.found last' n) := by
  generalize hp : Place.found last .directory = p at h
  induction h with
  | arrived l => exact ⟨0, Nat.le_refl _, l, .directory, .arrived l⟩
  | here hsaid _ ih =>
    obtain ⟨k', hk, l', n, h⟩ := ih hp
    exact ⟨k', hk, l', n, .here hsaid h⟩
  | up _ ih =>
    obtain ⟨k', hk, l', n, h⟩ := ih hp
    exact ⟨k', hk, l', n, .up h⟩
  | enter hsaid hup hnode _ ih =>
    obtain ⟨k', hk, l', n, h⟩ := ih hp
    exact ⟨k', hk, l', n, .enter hsaid hup hnode h⟩
  | follow hsaid hup hnode hlast _ ih =>
    rename_i l name target rest p _
    by_cases hrest : rest = []
    · subst hrest
      exact ⟨0, Nat.zero_le _, _, _, .stop hsaid hup hnode rfl⟩
    · obtain ⟨k', hk, l', n, h⟩ := ih hp
      exact ⟨k' + 1, Nat.succ_le_succ hk, l', n, .follow hsaid hup hnode (Or.inl hrest) h⟩
  | file | stop | vacant => cases hp

/-! ## Walks to a file that is written -/

theorem walkWith_cons (t : FileTree) (followLast : Bool) (onward : Location → List String → Except FileError Place)
    (l : Location) (name : String) (rest : List String) :
    t.walkWith followLast onward l (name :: rest) =
      if Pathname.SaysNothing name then t.walkWith followLast onward l rest
      else if name = Pathname.up then t.walkWith followLast onward l.dropLast rest
      else
        match t.get? (l ++ [name]) with
        | some .directory => t.walkWith followLast onward (l ++ [name]) rest
        | some (.file data) =>
          if rest = [] then .ok (.found (l ++ [name]) (.file data)) else .error .notADirectory
        | some (.link target) =>
          if rest = [] && !followLast then .ok (.found (l ++ [name]) (.link target))
          else onward (linkStart l target) (linkNames target ++ rest)
        | none => if rest = [] then .ok (.vacant (l ++ [name])) else .error .notFound :=
  rfl

/-- A walk ends at the same place where the walks behind links do. -/
theorem walkWith_eq_ok_of_imp {onward onward' : Location → List String → Except FileError Place}
    (honward : ∀ l names, onward l names = .ok p → onward' l names = .ok p)
    (h : t.walkWith followLast onward l names = .ok p) : t.walkWith followLast onward' l names = .ok p := by
  induction names generalizing l with
  | nil => exact h
  | cons name rest ih =>
    rw [walkWith_cons] at h ⊢
    split
    · rename_i hsaid
      rw [if_pos hsaid] at h
      exact ih h
    rename_i hsaid
    rw [if_neg hsaid] at h
    split
    · rename_i hup
      rw [if_pos hup] at h
      exact ih h
    rename_i hup
    rw [if_neg hup] at h
    cases hnode : t.get? (l ++ [name]) with
    | none =>
      rw [hnode] at h
      exact h
    | some n =>
      rw [hnode] at h
      cases n with
      | directory => exact ih h
      | file data => exact h
      | link target =>
        simp only at h ⊢
        split
        · rename_i hstop
          rwa [if_pos hstop] at h
        · rename_i hgo
          rw [if_neg hgo] at h
          exact honward _ _ h

/-- Behind a slash a walk finds a directory, if it finds anything. -/
theorem Leads.directory_of_slash (h : t.Leads true k l names p) (hlast : names.getLast? = some "") :
    ∃ last, p = .found last .directory := by
  have hrest {name : String} {rest : List String} (hne : rest ≠ [])
      (hlast : (name :: rest).getLast? = some "") : rest.getLast? = some "" := by
    rwa [List.getLast?_cons_of_ne_nil hne] at hlast
  -- Behind a name that is not a link the walk is at a directory: the names end there, or the rest ends as they do.
  have hbehind {k : Nat} {l : Location} {name : String} {rest : List String} {p : Place}
      (h : t.Leads true k l rest p) (hlast : (name :: rest).getLast? = some "")
      (ih : rest.getLast? = some "" → ∃ last, p = .found last .directory) :
      ∃ last, p = .found last .directory := by
    by_cases hne : rest = []
    · subst hne
      cases h
      exact ⟨l, rfl⟩
    · exact ih (hrest hne hlast)
  have hempty : Pathname.SaysNothing "" := Or.inl rfl
  induction h with
  | arrived => cases hlast
  | here _ h ih => exact hbehind h hlast ih
  | up h ih => exact hbehind h hlast ih
  | enter _ _ _ h ih => exact hbehind h hlast ih
  | file hsaid | stop hsaid | vacant hsaid =>
    obtain rfl := Option.some.inj hlast
    exact absurd hempty hsaid
  | @follow k l name target rest p hsaid _ _ _ _ ih =>
    have hne : rest ≠ [] := by
      rintro rfl
      obtain rfl := Option.some.inj hlast
      exact hsaid hempty
    apply ih
    rw [List.getLast?_append, hrest hne hlast]
    rfl

theorem walk_of_walkToWrite {links : Nat} (h : t.walkToWrite links l names = .ok p) :
    t.walk true links l names = .ok p := by
  induction links generalizing l names with
  | zero => exact h
  | succ links ih =>
    refine walkWith_eq_ok_of_imp ?_ h
    intro l names hnext
    split at hnext
    · split at hnext <;> cases hnext
    · exact ih hnext

/-- **A walk that does not end at a directory leads to a file that can be written.** -/
theorem walkToWrite_of_walk {links : Nat} (hp : ∀ last, p ≠ .found last .directory)
    (h : t.walk true links l names = .ok p) : t.walkToWrite links l names = .ok p := by
  induction links generalizing l names with
  | zero => exact h
  | succ links ih =>
    refine walkWith_eq_ok_of_imp ?_ h
    intro l names hnext
    have hslash : names.getLast? ≠ some "" := by
      intro hlast
      obtain ⟨k, -, hleads⟩ := walk_eq_ok_iff.mp hnext
      obtain ⟨last, hdirectory⟩ := hleads.directory_of_slash hlast
      exact hp last hdirectory
    rw [if_neg hslash]
    exact ih hnext

/-! ## Walks one after the other -/

/-- A walk to a directory goes on from there, with the links that are left. -/
theorem Leads.walk_append {middle : Location} {rest : List String}
    (h : t.Leads true k l names (.found middle .directory)) (hrest : rest ≠ []) (links : Nat) :
    t.walk followLast (k + links) l (names ++ rest) = t.walk followLast links middle rest := by
  generalize hp : Place.found middle .directory = p at h
  induction h with
  | arrived l =>
    cases hp
    rw [Nat.zero_add, List.nil_append]
  | here hsaid _ ih =>
    rw [List.cons_append, walk_cons, if_pos hsaid, ih hp]
  | up _ ih =>
    rw [List.cons_append, walk_cons, if_neg Pathname.not_saysNothing_up, if_pos rfl, ih hp]
  | enter hsaid hup hnode _ ih =>
    rw [List.cons_append, walk_cons, if_neg hsaid, if_neg hup, hnode]
    exact ih hp
  | @follow k l name target more p hsaid hup hnode _ _ ih =>
    -- Names are left behind the link, so it is followed even where the last one would not be.
    have hgo : ¬ (decide (more ++ rest = []) && !followLast) = true := by simp [hrest]
    have ih := ih hp
    rw [List.append_assoc] at ih
    rw [List.cons_append, walk_cons, if_neg hsaid, if_neg hup, hnode, Nat.add_right_comm]
    simp only
    rw [if_neg hgo, ih]
  | file | stop | vacant => cases hp

private theorem append_eq_singleton {names rest : List String} {name : String}
    (h : names ++ rest = [name]) (hrest : rest ≠ []) : names = [] ∧ rest = [name] := by
  rcases List.append_eq_singleton_iff.mp h with ⟨hnames, hrest'⟩ | ⟨_, hnil⟩
  · exact ⟨hnames, hrest'⟩
  · exact absurd hnil hrest

/-- With no first names all of a walk is the second one. -/
theorem Leads.split_nil {rest : List String} (h : t.Leads followLast k l rest p) :
    ∃ k₁ k₂ middle, k = k₁ + k₂ ∧ t.Leads true k₁ l [] (.found middle .directory) ∧
      t.Leads followLast k₂ middle rest p :=
  ⟨0, k, l, (Nat.zero_add k).symm, .arrived l, h⟩

/-- A walk along first names and others comes by a directory between them. -/
theorem Leads.split {rest : List String} (h : t.Leads followLast k l (names ++ rest) p)
    (hrest : rest ≠ []) :
    ∃ k₁ k₂ middle, k = k₁ + k₂ ∧ t.Leads true k₁ l names (.found middle .directory) ∧
      t.Leads followLast k₂ middle rest p := by
  -- While names are left the step is one of the first walk.
  generalize hall : names ++ rest = all at h
  induction h generalizing names with
  | arrived l =>
    have : rest = [] := (List.append_eq_nil_iff.mp hall).2
    exact absurd this hrest
  | @here k l name more p hsaid h ih =>
    cases names with
    | nil =>
      obtain rfl : rest = name :: more := hall
      exact Leads.split_nil (.here hsaid h)
    | cons name names =>
      obtain ⟨rfl, htail⟩ := List.cons.inj hall
      obtain ⟨k₁, k₂, middle, hk, h₁, h₂⟩ := ih htail
      exact ⟨k₁, k₂, middle, hk, .here hsaid h₁, h₂⟩
  | @up k l more p h ih =>
    cases names with
    | nil =>
      obtain rfl : rest = Pathname.up :: more := hall
      exact Leads.split_nil (.up h)
    | cons name names =>
      obtain ⟨rfl, htail⟩ := List.cons.inj hall
      obtain ⟨k₁, k₂, middle, hk, h₁, h₂⟩ := ih htail
      exact ⟨k₁, k₂, middle, hk, .up h₁, h₂⟩
  | @enter k l name more p hsaid hup hnode h ih =>
    cases names with
    | nil =>
      obtain rfl : rest = name :: more := hall
      exact Leads.split_nil (.enter hsaid hup hnode h)
    | cons name names =>
      obtain ⟨rfl, htail⟩ := List.cons.inj hall
      obtain ⟨k₁, k₂, middle, hk, h₁, h₂⟩ := ih htail
      exact ⟨k₁, k₂, middle, hk, .enter hsaid hup hnode h₁, h₂⟩
  | @follow k l name target more p hsaid hup hnode hlast h ih =>
    cases names with
    | nil =>
      obtain rfl : rest = name :: more := hall
      exact Leads.split_nil (.follow hsaid hup hnode hlast h)
    | cons name names =>
      obtain ⟨rfl, htail⟩ := List.cons.inj hall
      have htarget : linkNames target ++ names ++ rest = linkNames target ++ more := by
        rw [List.append_assoc]
        exact congrArg (linkNames target ++ ·) htail
      obtain ⟨k₁, k₂, middle, hk, h₁, h₂⟩ := ih htarget
      exact ⟨k₁ + 1, k₂, middle, by omega, .follow hsaid hup hnode (Or.inr rfl) h₁, h₂⟩
  | file hsaid hup hnode =>
    obtain ⟨rfl, rfl⟩ := append_eq_singleton hall hrest
    exact Leads.split_nil (.file hsaid hup hnode)
  | stop hsaid hup hnode hlast =>
    obtain ⟨rfl, rfl⟩ := append_eq_singleton hall hrest
    exact Leads.split_nil (.stop hsaid hup hnode hlast)
  | vacant hsaid hup hnode =>
    obtain ⟨rfl, rfl⟩ := append_eq_singleton hall hrest
    exact Leads.split_nil (.vacant hsaid hup hnode)

end FileTree

namespace Machine

variable {m : Machine} {p : Pathname} {followLast : Bool} {name : String}

/-! ## Locating -/

theorem locate_eq_ok_iff {place : Place} :
    m.locate followLast p = .ok place ↔
      p.holdsNul = false ∧ ∃ k ≤ maxLinks, m.tree.Leads followLast k (m.start p) p.parts place := by
  unfold locate
  cases p.holdsNul with
  | true => simp
  | false => simp [FileTree.walk_eq_ok_iff]

theorem locate_of_locateToWrite {place : Place} (h : m.locateToWrite p = .ok place) :
    m.locate true p = .ok place := by
  unfold locateToWrite at h
  unfold locate
  split at h
  · cases h
  · rename_i hnul
    rw [if_neg hnul]
    exact FileTree.walk_of_walkToWrite h

theorem locateToWrite_of_locate {place : Place} (hplace : ∀ last, place ≠ .found last .directory)
    (h : m.locate true p = .ok place) : m.locateToWrite p = .ok place := by
  unfold locate at h
  unfold locateToWrite
  split at h
  · cases h
  · rename_i hnul
    rw [if_neg hnul]
    exact FileTree.walkToWrite_of_walk hplace h

theorem get?_of_file {l : Location} {data : ByteArray}
    (h : m.locate followLast p = .ok (.found l (.file data))) :
    l ≠ [] ∧ m.tree.get? l = some (.file data) := by
  obtain ⟨_, k, _, hleads⟩ := locate_eq_ok_iff.mp h
  exact hleads.get?_file

theorem node_eq_ok_iff {n : Node} :
    m.node p = .ok n ↔ ∃ l, m.locate true p = .ok (.found l n) := by
  unfold node
  split <;> simp_all

theorem isDirectory_iff : m.isDirectory p = true ↔ m.node p = .ok .directory := by
  unfold isDirectory
  split <;> simp_all

theorem isFile_iff : m.isFile p = true ↔ ∃ data, m.node p = .ok (.file data) := by
  unfold isFile
  split <;> simp_all

theorem isPresent_iff : m.isPresent p = true ↔ ∃ n, m.node p = .ok n := by
  unfold isPresent
  split <;> simp_all

theorem read_eq_ok_iff {data : ByteArray} :
    m.read p = .ok data ↔ m.node p = .ok (.file data) := by
  unfold read
  split <;> simp_all

/-! ## The entries of a directory -/

/-- A name that an entry of a directory can have. -/
def IsEntryName (name : String) : Prop :=
  ¬ Pathname.SaysNothing name ∧ name ≠ Pathname.up ∧ name.toList.contains '\x00' = false

instance : DecidablePred IsEntryName := fun _ => inferInstanceAs (Decidable (_ ∧ _ ∧ _))

theorem holdsNul_child (p : Pathname) (hname : IsEntryName name) :
    (p.child name).holdsNul = p.holdsNul := by
  simp only [Pathname.holdsNul, Pathname.child, List.any_append, List.any_cons, List.any_nil, hname.2.2,
    Bool.or_false]

/-- What an entry of a directory leads to is told by a walk from the directory. -/
theorem locate_child_eq {k : Nat} {l : Location} (hname : IsEntryName name) (hnul : p.holdsNul = false)
    (hk : k ≤ maxLinks) (h : m.tree.Leads true k (m.start p) p.parts (.found l .directory)) :
    m.locate followLast (p.child name) = m.tree.walk followLast (maxLinks - k) l [name] := by
  have hwalk : m.tree.walk followLast (k + (maxLinks - k)) (m.start p) (p.parts ++ [name]) =
      m.tree.walk followLast (maxLinks - k) l [name] :=
    h.walk_append (List.cons_ne_nil name []) _
  rw [Nat.add_sub_cancel' hk] at hwalk
  have hnul' : (p.child name).holdsNul = false := (holdsNul_child p hname).trans hnul
  rw [locate, hnul']
  exact hwalk

theorem locate_child {l : Location} {place : Place} (hname : IsEntryName name)
    (h : m.locate true p = .ok (.found l .directory))
    (hstep : m.tree.Leads followLast 0 l [name] place) :
    m.locate followLast (p.child name) = .ok place := by
  obtain ⟨hnul, k, hk, hleads⟩ := locate_eq_ok_iff.mp h
  rw [locate_child_eq hname hnul hk hleads]
  exact hstep.walk (Nat.zero_le _)

/-- What an entry leads to is reached from the directory of the entry. -/
theorem locate_of_child {place : Place} (hname : IsEntryName name)
    (h : m.locate followLast (p.child name) = .ok place) :
    ∃ l, m.locate true p = .ok (.found l .directory) ∧
      ∃ k ≤ maxLinks, m.tree.Leads followLast k l [name] place := by
  obtain ⟨hnul, k, hk, hleads⟩ := locate_eq_ok_iff.mp h
  rw [holdsNul_child p hname] at hnul
  obtain ⟨k₁, k₂, l, rfl, h₁, h₂⟩ := FileTree.Leads.split hleads (List.cons_ne_nil name [])
  refine ⟨l, locate_eq_ok_iff.mpr ⟨hnul, k₁, ?_, h₁⟩, k₂, ?_, h₂⟩
  · omega
  · omega

end Machine

end ArtifactIdentity
