import ArtifactIdentity.Proofs.Json.Writable
import ArtifactIdentity.Proofs.Json.Written
import ArtifactIdentity.Proofs.Toml.Flaws

/-!
# A JSON object is no TOML document

A JSON object is read only from a text whose first mark behind the white space is a brace: whatever else may
stand there begins a scalar or an array, and an array that is open at the bottom of the stack stays there
until it is the whole value. No TOML statement begins with a brace. So no document is read both as a JSON
object and as a table of TOML.
-/

namespace ArtifactIdentity

namespace Json

/-! ## The first token -/

/-- The first mark of a text, behind its white space, is the brace that opens an object. -/
def OpensObject (cs : List Char) : Prop :=
  ∃ rest, cs.dropWhile isSpace = '\x7b' :: rest

theorem opensObject_cons_iff {c : Char} {cs : List Char} :
    OpensObject (c :: cs) ↔ c = '\x7b' ∨ isSpace c = true ∧ OpensObject cs := by
  by_cases hspace : isSpace c = true
  · have hbrace : c ≠ '\x7b' := by
      rintro rfl
      exact absurd hspace (by decide)
    rw [OpensObject, List.dropWhile_cons_of_pos hspace]
    simp only [hbrace, hspace, true_and, false_or, OpensObject]
  · rw [OpensObject, List.dropWhile_cons_of_neg hspace]
    simp [hspace]

theorem isScalar_of_numberOf {negative : Bool} {whole : List Char} {fraction : Option (List Char)}
    {exponent : Option Int} {v : Json} (h : numberOf negative whole fraction exponent = some v) :
    isScalar v = true := by
  simp only [numberOf] at h
  generalize (if negative then -(Text.valueOf 10 whole : Int) else Text.valueOf 10 whole) = n at h
  split at h
  · obtain rfl := Option.some.inj h
    rfl
  · split at h
    · cases h
    · obtain rfl := Option.some.inj h
      rfl

/-- What a first token tells of the text: a brace is a brace, and a value holds no other value. -/
def Token.Tells (cs : List Char) : Token → Prop
  | .beginObject => ∃ rest, cs = '\x7b' :: rest
  | .literal v => isScalar v = true
  | _ => True

theorem brace_of_scanToken {cs rest : List Char} (h : scanToken cs = some (.beginObject, rest)) :
    cs = '\x7b' :: rest := by
  unfold scanToken at h
  split at h
  case h_2 =>
    obtain rfl := congrArg Prod.snd (Option.some.inj h)
    rfl
  case h_8 | h_12 | h_13 =>
    obtain ⟨_, -, hpair⟩ := Option.map_eq_some_iff.mp h
    cases congrArg Prod.fst hpair
  -- Nothing is left, or another token stands there.
  all_goals cases h

theorem tells_of_scanToken {cs rest : List Char} {t : Token} (h : scanToken cs = some (t, rest)) :
    t.Tells cs := by
  cases t with
  | beginObject => exact ⟨rest, brace_of_scanToken h⟩
  | literal v =>
    rcases literal_of_scanToken h with rfl | ⟨b, rfl⟩ | ⟨negative, whole, fraction, exponent, hnumber⟩
    · rfl
    · rfl
    · exact isScalar_of_numberOf hnumber
  | _ => trivial

/-- The first token stands behind the white space. -/
theorem tells_of_tokens {cs : List Char} {t : Token} {ts : List Token} (h : tokens cs = some (t :: ts)) :
    t.Tells (cs.dropWhile isSpace) := by
  induction cs using tokens.induct with
  | case1 =>
    rw [tokens] at h
    cases h
  | case2 c cs hspace ih =>
    rw [tokens, if_pos hspace] at h
    rw [List.dropWhile_cons_of_pos hspace]
    exact ih h
  | case3 c cs hspace hscan =>
    rw [tokens, if_neg hspace] at h
    split at h
    · cases h
    · rename_i hsome
      rw [hscan] at hsome
      cases hsome
  | case4 c cs hspace u rest hscan _ =>
    rw [tokens, if_neg hspace] at h
    rw [List.dropWhile_cons_of_neg hspace]
    split at h
    · cases h
    · rename_i hscan'
      obtain ⟨more, -, hcons⟩ := Option.map_eq_some_iff.mp h
      obtain rfl := (List.cons.inj hcons).1
      exact tells_of_scanToken hscan'

/-! ## The outermost container -/

/-- The outermost container that is open is an array. -/
def InArray (frames : List Frame) : Prop :=
  ∃ done, frames.getLast? = some (.items done)

theorem inArray_cons_iff {f : Frame} {frames : List Frame} :
    InArray (f :: frames) ↔ (frames = [] ∧ ∃ done, f = .items done) ∨ InArray frames := by
  cases frames with
  | nil => simp [InArray]
  | cons g frames => simp [InArray]

theorem eq_of_build_after {v w : Json} {ts : List Token} (h : build (.after v) [] ts = some w) : v = w := by
  cases ts with
  | nil => simpa [build] using h
  | cons t ts => simp [build] at h

/-- **What is read inside an array is an array.** -/
theorem exists_array_of_build {e : Expected} {frames : List Frame} {ts : List Token} {v : Json}
    (hframes : InArray frames) (h : build e frames ts = some v) : ∃ items, v = .array items := by
  have hpush {frames : List Frame} (f : Frame) (hframes : InArray frames) : InArray (f :: frames) :=
    inArray_cons_iff.mpr (Or.inr hframes)
  have hpop {done : List (String × Json)} {name : String} {frames : List Frame}
      (hframes : InArray (.member done name :: frames)) : InArray frames := by
    rcases inArray_cons_iff.mp hframes with ⟨-, _, hitems⟩ | hframes
    · cases hitems
    · exact hframes
  -- The end of an array leads on to the containers around it, unless it is the outermost one.
  have hend {done items : List Json} {frames : List Frame} {ts : List Token}
      (hframes : InArray (.items done :: frames)) (h : build (.after (.array items)) frames ts = some v)
      (ih : InArray frames → build (.after (.array items)) frames ts = some v → ∃ items, v = .array items) :
      ∃ items, v = .array items := by
    rcases inArray_cons_iff.mp hframes with ⟨rfl, -⟩ | hframes
    · exact ⟨items, (eq_of_build_after h).symm⟩
    · exact ih hframes h
  fun_induction build e frames ts with
  | case1 => simp [InArray] at hframes
  -- An item or a member is complete, and its array or object goes on or ends.
  | case2 u done frames rest ih =>
    refine ih (inArray_cons_iff.mpr ?_) h
    exact (inArray_cons_iff.mp hframes).imp_left fun hitems => ⟨hitems.1, u :: done, rfl⟩
  | case3 u done frames rest ih => exact hend hframes h ih
  | case4 u done name frames rest ih | case5 u done name frames rest ih => exact ih (hpop hframes) h
  | case6 done frames rest ih => exact hend hframes h ih
  -- A value that holds no other.
  | case7 frames v rest ih | case8 frames v rest ih => exact ih hframes h
  | case9 frames s rest ih | case10 frames s rest ih => exact ih hframes h
  -- A container is opened, unless it lies too deep.
  | case11 frames rest _ ih | case13 frames rest _ ih => exact ih (hpush _ hframes) h
  | case15 frames rest _ ih | case17 frames rest _ ih => exact ih hframes h
  | case12 | case14 | case16 | case18 => cases h
  -- The names of an object.
  | case19 frames rest ih | case20 frames s rest ih | case21 done frames s rest ih => exact ih hframes h
  | case22 done name frames rest ih => exact ih (hpush _ hframes) h
  | case23 => cases h

/-- **An object is read only from a text whose first mark is a brace.** -/
theorem opensObject_of_ofChars? {cs : List Char} {members : List (String × Json)}
    (h : ofChars? cs = some (.object members)) : OpensObject cs := by
  obtain ⟨ts, hts, hbuild⟩ := Option.bind_eq_some_iff.mp h
  cases ts with
  | nil => simp [build] at hbuild
  | cons t ts =>
    have htells := tells_of_tokens hts
    cases t with
    | beginObject => exact htells
    | beginArray =>
      obtain ⟨items, hitems⟩ : ∃ items, object members = .array items := by
        have hopen : build .firstItem [.items []] ts = some (object members) := by
          simpa [build, mayOpen, maxDepth] using hbuild
        exact exists_array_of_build ⟨[], rfl⟩ hopen
      cases hitems
    | literal v =>
      rw [build] at hbuild
      obtain rfl := eq_of_build_after hbuild
      cases (show isScalar (object members) = true from htells)
    | string s =>
      rw [build] at hbuild
      cases eq_of_build_after hbuild
    | endObject | endArray | colon | comma => simp [build] at hbuild

end Json

namespace Toml

/-! ## Statements -/

/-- Line ends written otherwise keep the first mark. -/
theorem opensObject_withoutReturns {cs : List Char} (h : Json.OpensObject cs) :
    Json.OpensObject (withoutReturns cs) := by
  fun_induction withoutReturns cs with
  | case1 => exact h
  | case2 rest ih => exact ih h
  | case3 c rest _ ih =>
    rw [Json.opensObject_cons_iff] at h ⊢
    exact h.imp_right (And.imp_right ih)

theorem isSpace_eq (c : Char) : Json.isSpace c = (isGap c || c = '\n' || c = '\r') := by
  rfl

theorem opensObject_skipGap {cs : List Char} (h : Json.OpensObject cs) : Json.OpensObject (skipGap cs) := by
  induction cs with
  | nil => exact h
  | cons c rest ih =>
    by_cases hgap : isGap c = true
    · rw [skipGap, List.dropWhile_cons_of_pos hgap]
      rcases Json.opensObject_cons_iff.mp h with rfl | ⟨-, hrest⟩
      · exact absurd hgap (by decide)
      · exact ih hrest
    · rw [skipGap, List.dropWhile_cons_of_neg hgap]
      exact h

/-- **A text whose first mark is a brace is malformed, whatever was read before it.** -/
theorem Document.scanLines_malformed (lines : Nat) (doc : Document) {cs : List Char}
    (h : Json.OpensObject cs) : scanLines lines doc cs = malformed := by
  induction lines generalizing cs with
  | zero => rfl
  | succ lines ih =>
    have hopens := opensObject_skipGap h
    have hhead := List.head?_dropWhile_not isGap cs
    rw [← skipGap] at hhead
    rw [scanLines]
    cases hgap : skipGap cs with
    | nil =>
      rw [hgap] at hopens
      obtain ⟨_, hnil⟩ := hopens
      cases hnil
    | cons c rest =>
      rw [hgap] at hopens hhead
      have hstop : isGap c = false := hhead
      -- No statement begins with a brace, nor with a carriage return that ends no line.
      rcases Json.opensObject_cons_iff.mp hopens with rfl | ⟨hspace, hrest⟩
      · rfl
      · rw [isSpace_eq, hstop] at hspace
        simp only [Bool.false_or, Bool.or_eq_true, decide_eq_true_eq] at hspace
        rcases hspace with rfl | rfl
        · exact ih hrest
        · rfl

/-- **No document is a JSON object and TOML.** -/
theorem ofBytes_of_object {data : ByteArray} {members : List (String × Json)}
    (h : Json.ofBytes? data = some (.object members)) : ofBytes data = .error .malformed := by
  obtain ⟨s, hs, hchars⟩ := Option.bind_eq_some_iff.mp h
  have hlines := Document.scanLines_malformed ((withoutReturns s.toList).length + 1) {}
    (opensObject_withoutReturns (Json.opensObject_of_ofChars? hchars))
  rw [ofBytes, hs]
  show ofChars s.toList = _
  rw [ofChars, hlines]
  rfl

end Toml

end ArtifactIdentity
