import ArtifactIdentity.Proofs.Files.Landing

/-!
# What a path resolves to

The resolution of a path is told step by step by a relation, without spellings and without a list of links that
are being opened: a dot says nothing, `..` goes back up, a link is replaced by what its own path resolves to,
and any other name is added, be there a node or not. The relation counts the links. A path has one resolution
at most, so a link is never opened inside itself, and following names comes out where the relation says. It
goes in circles where the relation says nothing.
-/

namespace ArtifactIdentity

namespace FileTree

open Machine (IsEntryName)

/-- Names that are followed from a location resolve to a location, while a number of links is opened. -/
inductive Resolves (t : FileTree) : Nat → Location → List String → Location → Prop
  | done (l : Location) : Resolves t 0 l [] l
  | here {k : Nat} {l last : Location} {name : String} {rest : List String}
      (hsaid : Pathname.SaysNothing name) (h : Resolves t k l rest last) : Resolves t k l (name :: rest) last
  | up {k : Nat} {l last : Location} {rest : List String} (h : Resolves t k l.dropLast rest last) :
    Resolves t k l (Pathname.up :: rest) last
  | plain {k : Nat} {l last : Location} {name : String} {rest : List String} (hname : IsEntryName name)
      (hnode : ∀ target, t.get? (l ++ [name]) ≠ some (.link target))
      (h : Resolves t k (l ++ [name]) rest last) : Resolves t k l (name :: rest) last
  | link {k k' : Nat} {l there last : Location} {name target : String} {rest : List String}
      (hname : IsEntryName name) (hnode : t.get? (l ++ [name]) = some (.link target))
      (hopen : Resolves t k (linkStart l target) (linkNames target) there)
      (h : Resolves t k' there rest last) : Resolves t (k + k' + 1) l (name :: rest) last

variable {t : FileTree} {k k' depth room : Nat} {l last last' : Location} {names rest : List String}
  {name target : String} {s s' : Spelling} {opened : List (Spelling × Location)}

/-! ## One resolution -/

theorem Resolves.of_here (hsaid : Pathname.SaysNothing name) (h : t.Resolves k l (name :: rest) last) :
    t.Resolves k l rest last := by
  cases h with
  | here _ h => exact h
  | up => exact absurd hsaid Pathname.not_saysNothing_up
  | plain hname | link hname => exact absurd hsaid hname.1

theorem Resolves.of_up (h : t.Resolves k l (Pathname.up :: rest) last) :
    t.Resolves k l.dropLast rest last := by
  generalize hnames : Pathname.up :: rest = names at h
  cases h with
  | done => cases hnames
  | here hsaid =>
    rw [← (List.cons.inj hnames).1] at hsaid
    exact absurd hsaid Pathname.not_saysNothing_up
  | up h =>
    obtain ⟨-, rfl⟩ := List.cons.inj hnames
    exact h
  | plain hname | link hname => exact absurd (List.cons.inj hnames).1.symm hname.2.1

/-- A name with no link behind it is added. -/
theorem Resolves.of_plain (hname : IsEntryName name)
    (hnode : ∀ target, t.get? (l ++ [name]) ≠ some (.link target))
    (h : t.Resolves k l (name :: rest) last) : t.Resolves k (l ++ [name]) rest last := by
  cases h with
  | here hsaid => exact absurd hsaid hname.1
  | up => exact absurd rfl hname.2.1
  | plain _ _ h => exact h
  | link _ hlink => exact absurd hlink (hnode _)

/-- A link is opened before the names behind it are followed. -/
theorem Resolves.of_link (hname : IsEntryName name) (hnode : t.get? (l ++ [name]) = some (.link target))
    (h : t.Resolves k l (name :: rest) last) :
    ∃ k₁ k₂ there, k = k₁ + k₂ + 1 ∧ t.Resolves k₁ (linkStart l target) (linkNames target) there ∧
      t.Resolves k₂ there rest last := by
  cases h with
  | here hsaid => exact absurd hsaid hname.1
  | up => exact absurd rfl hname.2.1
  | plain _ hplain => exact absurd hnode (hplain _)
  | link _ hlink hopen h =>
    obtain rfl : target = _ := Node.link.inj (Option.some.inj (hnode.symm.trans hlink))
    exact ⟨_, _, _, rfl, hopen, h⟩

/-- **A path has one resolution, with one number of links.** -/
theorem Resolves.unique (h : t.Resolves k l names last) (h' : t.Resolves k' l names last') :
    k' = k ∧ last' = last := by
  induction h generalizing k' last' with
  | done l =>
    cases h'
    exact ⟨rfl, rfl⟩
  | here hsaid _ ih => exact ih (h'.of_here hsaid)
  | up _ ih => exact ih h'.of_up
  | plain hname hnode _ ih => exact ih (h'.of_plain hname hnode)
  | link hname hnode _ _ ihopen ih =>
    obtain ⟨k₁, k₂, there, rfl, hopen, hrest⟩ := h'.of_link hname hnode
    obtain ⟨rfl, rfl⟩ := ihopen hopen
    obtain ⟨rfl, rfl⟩ := ih hrest
    exact ⟨rfl, rfl⟩

/-- **A straight location resolves to straight ones.** -/
theorem Resolves.straight (h : t.Resolves k l names last) (hl : t.Straight l) : t.Straight last := by
  induction h with
  | done => exact hl
  | here _ _ ih => exact ih hl
  | up _ ih => exact ih (hl.above (List.dropLast_prefix _))
  | plain hname hnode _ ih => exact ih (hl.concat hname.1 hname.2.1 hnode)
  | link _ _ _ _ ihopen ih => exact ih (ihopen hl.linkStart)

/-! ## The relation and the function -/

/-- What comes out of following names is a resolution where that holds of the links that are opened. -/
theorem resolves_of_expandWith {openLink : Spelling → Location → String → Expansion}
    (hopen : ∀ s link target s' there, openLink s link target = .done s' there →
      ∃ k, t.Resolves k (linkStart link.dropLast target) (linkNames target) there)
    (h : t.expandWith depth openLink s l names = .done s' last) : ∃ k, t.Resolves k l names last := by
  fun_induction expandWith t depth openLink s l names with
  | case1 s here =>
    obtain ⟨-, rfl⟩ := Expansion.done.inj h
    exact ⟨0, .done here⟩
  | case2 s here name rest hsaid ih =>
    obtain ⟨k, hk⟩ := ih h
    exact ⟨k, .here hsaid hk⟩
  | case3 s here rest _ ih =>
    obtain ⟨k, hk⟩ := ih h
    exact ⟨k, .up hk⟩
  | case4 | case6 | case7 | case8 => cases h
  | case5 s here name rest hsaid hup hclean l target hnode s₁ there hthere ih =>
    have hname : IsEntryName name := ⟨hsaid, hup, by simpa using hclean⟩
    obtain ⟨k₁, hlink⟩ := hopen s (here ++ [name]) _ s₁ there hthere
    rw [List.dropLast_concat] at hlink
    obtain ⟨k₂, hrest⟩ := ih h
    exact ⟨k₁ + k₂ + 1, .link hname hnode hlink hrest⟩
  | case9 s here name rest hsaid hup hclean l hnode ih =>
    have hname : IsEntryName name := ⟨hsaid, hup, by simpa using hclean⟩
    obtain ⟨k, hk⟩ := ih h
    exact ⟨k, .plain hname hnode hk⟩

theorem resolves_of_expand (h : t.expand depth room opened s l names = .done s' last) :
    ∃ k, t.Resolves k l names last := by
  induction room using Nat.strongRecOn generalizing opened s l names s' last with
  | _ room ih =>
    rw [expand_eq_expandWith] at h
    refine resolves_of_expandWith ?_ h
    intro s link target s' there hthere
    obtain ⟨room', hless, _, hinside⟩ := expand_of_opener (fun _ => reopened_ne_done) hthere
    exact ih room' hless hinside

/-- The path of a link that is being opened has a resolution with at least some number of links. -/
def OpensWith (t : FileTree) (k : Nat) (link : Location) : Prop :=
  ∃ target k' there, t.get? link = some (.link target) ∧ k ≤ k' ∧
    t.Resolves k' (linkStart link.dropLast target) (linkNames target) there

theorem OpensWith.mono {link : Location} (h : t.OpensWith k link) (hk : k' ≤ k) : t.OpensWith k' link := by
  obtain ⟨target, more, there, hnode, hmore, hresolves⟩ := h
  exact ⟨target, more, there, hnode, hk.trans hmore, hresolves⟩

/-- Following names comes out where they resolve to, while links are being opened that need no fewer links. -/
theorem Resolves.expand (h : t.Resolves k l names last) (hroom : (t.unopened depth opened).card ≤ room)
    (hopened : ∀ way ∈ opened, t.OpensWith k way.2) (s : Spelling) :
    ∃ s', t.expand depth room opened s l names = .done s' last := by
  rw [expand_eq_expandWith]
  induction h generalizing room opened s with
  | done l => exact ⟨s, rfl⟩
  | here hsaid _ ih =>
    rw [expandWith_cons, if_pos hsaid]
    exact ih hroom hopened s
  | up _ ih =>
    rw [expandWith_cons, if_neg Pathname.not_saysNothing_up, if_pos rfl]
    exact ih hroom hopened _
  | @plain k l last name rest hname hnode _ ih =>
    have hnul : ¬ name.toList.contains '\x00' = true := Bool.eq_false_iff.mp hname.2.2
    rw [expandWith_cons, if_neg hname.1, if_neg hname.2.1, if_neg hnul]
    split
    · rename_i target hlink
      exact absurd hlink (hnode target)
    · exact ih hroom hopened s
  | @link k₁ k₂ l there last name target rest hname hnode hopen _ ihopen ih =>
    have hnul : ¬ name.toList.contains '\x00' = true := Bool.eq_false_iff.mp hname.2.2
    have hdrop : (l ++ [name]).dropLast = l := List.dropLast_concat
    -- A link that is being opened would need as many links as this one and those behind it.
    have hnew : isOpen depth opened s (l ++ [name]) = false := by
      apply isOpen_eq_false
      intro way hway hlink
      obtain ⟨target', k', there', hnode', hk', h'⟩ := hopened way hway
      rw [hlink] at hnode' h'
      obtain rfl : target = target' := Node.link.inj (Option.some.inj (hnode.symm.trans hnode'))
      rw [hdrop] at h'
      have hsame := (hopen.unique h').1
      omega
    have hlt := card_unopened_cons_lt hnode hnew
    rw [expandWith_cons, if_neg hname.1, if_neg hname.2.1, if_neg hnul, hnode]
    cases room with
    | zero => omega
    | succ room =>
      have hinside : ∃ s', t.opener depth (room + 1) opened s (l ++ [name]) target = .done s' there := by
        rw [t.opener_of_new depth room target hnew, hdrop, expand_eq_expandWith]
        apply ihopen (by omega)
        intro way hway
        rcases List.mem_cons.mp hway with rfl | hway
        · refine ⟨target, k₁, there, hnode, Nat.le_refl _, ?_⟩
          rw [hdrop]
          exact hopen
        · exact (hopened way hway).mono (by omega)
      obtain ⟨s', hinside⟩ := hinside
      simp only [hinside]
      exact ih hroom (fun way hway => (hopened way hway).mono (by omega)) s'

/-- **Following names comes out at a location exactly where they resolve to it.** -/
theorem expand_eq_done_iff :
    (∃ s', t.expand depth (t.room depth) [] s l names = .done s' last) ↔ ∃ k, t.Resolves k l names last := by
  constructor
  · rintro ⟨s', h⟩
    exact resolves_of_expand h
  · rintro ⟨k, h⟩
    exact h.expand (card_unopened_le t depth []) (by simp) s

end FileTree

namespace Machine

variable {m : Machine} {p : Pathname} {l : Location}

/-- A path resolves to a location. -/
def ResolvesTo (m : Machine) (p : Pathname) (l : Location) : Prop :=
  ∃ k, m.tree.Resolves k (m.start p) p.parts l

theorem resolvesTo_iff : m.ResolvesTo p l ↔ ∃ s, m.expansion p = .done s l :=
  FileTree.expand_eq_done_iff.symm

/-- The location that following a path comes out at. -/
def expanded? (m : Machine) (p : Pathname) : Option Location :=
  match m.expansion p with
  | .done _ l => some l
  | _ => none

theorem resolvesTo_iff_expanded? : m.ResolvesTo p l ↔ m.expanded? p = some l := by
  rw [resolvesTo_iff, expanded?]
  cases m.expansion p <;> simp

instance (m : Machine) (p : Pathname) (l : Location) : Decidable (m.ResolvesTo p l) :=
  decidable_of_iff _ resolvesTo_iff_expanded?.symm

theorem ResolvesTo.resolve (h : m.ResolvesTo p l) : m.resolve p = .ok l := by
  obtain ⟨s, hdone⟩ := resolvesTo_iff.mp h
  rw [Machine.resolve, hdone]

/-- A path that resolves to a location does not go in circles. -/
theorem ResolvesTo.not_loops (h : m.ResolvesTo p l) : ¬ m.Loops p := by
  rintro ⟨text, hlooped⟩
  obtain ⟨s, hdone⟩ := resolvesTo_iff.mp h
  rw [hdone] at hlooped
  cases hlooped

/-- **A path is resolved to what it resolves to, or it goes in circles and resolves to nothing.** -/
theorem resolvesTo_or_loops (h : m.resolve p = .ok l) :
    m.ResolvesTo p l ∨ m.Loops p ∧ ∀ last, ¬ m.ResolvesTo p last := by
  cases hexpand : m.expansion p with
  | done s there =>
    rw [Machine.resolve, hexpand] at h
    obtain rfl := Except.ok.inj h
    exact Or.inl (resolvesTo_iff.mpr ⟨s, hexpand⟩)
  | looped text =>
    have hloops : m.Loops p := ⟨text, hexpand⟩
    exact Or.inr ⟨hloops, fun last hlast => hlast.not_loops hloops⟩
  | nul | endless =>
    rw [Machine.resolve, hexpand] at h
    cases h

/-- An absolute path that is resolved without going in circles is resolved to a straight location. -/
theorem straight_of_resolve (habsolute : p.absolute = true) (hloop : ¬ m.Loops p)
    (h : m.resolve p = .ok l) : m.tree.Straight l := by
  rcases resolvesTo_or_loops h with ⟨k, hresolves⟩ | ⟨hloops, -⟩
  · rw [start, if_pos habsolute] at hresolves
    exact hresolves.straight (.nil m.tree)
  · exact absurd hloops hloop

end Machine

end ArtifactIdentity
