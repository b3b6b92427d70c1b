import ArtifactIdentity.Json.Reader
import ArtifactIdentity.Json.Writer
import ArtifactIdentity.Proofs.Text.Digits

/-!
# Written documents read back

A document is read token by token, so a text is described by the tokens that stand in front of the rest of
it. A written string and a written number are one token each, and the tokens of an object with distinct
names are put together to the members in the order in which they were written.
-/

namespace ArtifactIdentity.Json

open Text

/-! ## Numbers without their sign -/

/-- A rest that no number goes on into: it begins with a comma or a line break. -/
def EndsValue (rest : List Char) : Prop :=
  ∃ c cs, rest = c :: cs ∧ (c = ',' ∨ c = '\n')

/-- **The decimal digits of a number are scanned as that number.** -/
theorem scanUnsigned_decimal {n : Nat} (h : n < 0x10000000000000000) {rest : List Char}
    (hr : EndsValue rest) :
    scanUnsigned false (decimal n ++ rest) = some (.integer n, rest) := by
  obtain ⟨c, cs, rfl, hc⟩ := hr
  -- What follows a value in a written document is neither a digit nor a part of a number.
  have hstop : isDigit c = false ∧ c ≠ '.' ∧ c ≠ 'e' ∧ c ≠ 'E' := by
    rcases hc with rfl | rfl <;> decide
  obtain ⟨hdigit, hdot, he, hE⟩ := hstop
  have hspan : spanDigits (decimal n ++ c :: cs) = (decimal n, c :: cs) := by
    have hall : ∀ d ∈ decimal n, isDigit d = true := List.all_eq_true.mp (all_isDigit_decimal n)
    rw [spanDigits, List.takeWhile_append_of_pos hall, List.dropWhile_append_of_pos hall]
    simp [hdigit]
  have hwhole : (decimal n = [] || (decimal n).head? = some '0' && decimal n ≠ ['0']) = false := by
    rcases Nat.eq_zero_or_pos n with rfl | hpos
    · decide +kernel
    · simp [decimal_ne_nil, head?_decimal_ne_zero hpos]
  have hfraction : scanFraction (c :: cs) = some (none, c :: cs) := by
    unfold scanFraction
    split
    · rename_i heq
      exact absurd (List.cons.inj heq).1 hdot
    · rfl
  have hexponent : scanExponent (c :: cs) = some (none, c :: cs) := by
    simp [scanExponent, he, hE]
  have hnumber : numberOf false (decimal n) none none = some (.integer n) := by
    have hlow : -9223372036854775808 ≤ (n : Int) := by omega
    have hhigh : (n : Int) < 18446744073709551616 := by omega
    simp [numberOf, valueOf_decimal, hlow, hhigh]
  simp only [scanUnsigned, hspan, hwhole, hfraction, hexponent, hnumber]
  rfl

theorem isSpace_of_isDigit {c : Char} (h : isDigit c = true) : isSpace c = false := by
  rcases Bool.eq_false_or_eq_true (isSpace c) with hs | hs
  · simp only [isSpace, Bool.or_eq_true, decide_eq_true_eq] at hs
    rcases hs with ((rfl | rfl) | rfl) | rfl <;> simp [isDigit] at h
  · exact hs

theorem scanToken_of_isDigit {c : Char} (h : isDigit c = true) (cs : List Char) :
    scanToken (c :: cs) = (scanUnsigned false (c :: cs)).map fun (v, rest) => (.literal v, rest) := by
  unfold scanToken
  split
  case h_1 heq => cases heq
  case h_13 => rfl
  all_goals
    rename_i heq
    obtain ⟨rfl, -⟩ := List.cons.inj heq
    simp [isDigit] at h

/-! ## Tokens in front of a rest -/

/-- A text begins with some tokens and goes on with a rest. -/
def Begins (cs : List Char) (ts : List Token) (rest : List Char) : Prop :=
  tokens cs = (tokens rest).map (ts ++ ·)

namespace Begins

theorem refl (cs : List Char) : Begins cs [] cs := by
  simp [Begins]

theorem trans {cs mid rest : List Char} {ts us : List Token} (h : Begins cs ts mid)
    (h' : Begins mid us rest) : Begins cs (ts ++ us) rest := by
  rw [Begins, h, h', Option.map_map]
  congr 1
  funext more
  simp

/-- White space in front of a text is no token. -/
theorem space {c : Char} (hc : isSpace c = true) {cs rest : List Char} {ts : List Token}
    (h : Begins cs ts rest) : Begins (c :: cs) ts rest := by
  rw [Begins, tokens, if_pos hc, h]

/-- A text that begins with the first token. -/
theorem token {c : Char} (hc : isSpace c = false) {cs rest : List Char} {t : Token}
    (h : scanToken (c :: cs) = some (t, rest)) : Begins (c :: cs) [t] rest := by
  rw [Begins, tokens, if_neg (by simp [hc])]
  split
  · rename_i hnone
    rw [h] at hnone
    cases hnone
  · rename_i t' rest' hsome
    rw [h] at hsome
    cases hsome
    rfl

/-- A written string is one token, whatever follows it. -/
theorem string (s : String) (rest : List Char) :
    Begins (stringChars s.toList ++ rest) [.string s] rest := by
  have happend : stringChars s.toList ++ rest = '"' :: (s.toList.flatMap escape ++ '"' :: rest) := by
    simp [stringChars]
  rw [happend]
  refine token (by decide) ?_
  simp only [scanToken, scanString_stringChars, Option.map_some, String.ofList_toList]

theorem number {n : Nat} (h : n < 0x10000000000000000) {rest : List Char} (hr : EndsValue rest) :
    Begins (decimal n ++ rest) [.literal (.integer n)] rest := by
  have hscan := scanUnsigned_decimal h hr
  cases hd : decimal n with
  | nil => exact absurd hd (decimal_ne_nil n)
  | cons c cs =>
    have hc : isDigit c = true := isDigit_of_mem_decimal (n := n) (by simp [hd])
    rw [hd, List.cons_append] at hscan
    rw [List.cons_append]
    refine token (isSpace_of_isDigit hc) ?_
    rw [scanToken_of_isDigit hc, hscan]
    rfl

/-- The word of a flag and the word for no value are one token each. -/
theorem flag (b : Bool) (rest : List Char) :
    Begins (flagChars b ++ rest) [.literal (.bool b)] rest := by
  cases b
  · exact token (by decide) (by simp [scanToken])
  · exact token (by decide) (by simp [scanToken])

theorem null (rest : List Char) : Begins (nullChars ++ rest) [.literal .null] rest :=
  token (by decide) (by simp [scanToken])

end Begins

/-- A document is read from its tokens. -/
theorem ofChars?_of_begins {cs : List Char} {ts : List Token} (h : Begins cs ts []) :
    ofChars? cs = build .value [] ts := by
  have hnil : tokens [] = some [] := by rw [tokens]
  have : tokens cs = some ts := by
    rw [h, hnil]
    simp
  rw [ofChars?, this]
  rfl

theorem fromUTF8?_toUTF8 (s : String) : String.fromUTF8? s.toUTF8 = some s := by
  rw [String.fromUTF8?, String.toUTF8_eq_toByteArray, dif_pos s.isValidUTF8]
  rfl

theorem ofBytes?_toUTF8 (s : String) : ofBytes? s.toUTF8 = ofChars? s.toList := by
  rw [ofBytes?, fromUTF8?_toUTF8]
  rfl

/-! ## Objects of scalars -/

/-- The token of a value that holds no other value. -/
def scalarToken : Json → Token
  | .string s => .string s
  | v => .literal v

def isScalar : Json → Bool
  | .array _ | .object _ => false
  | _ => true

/-- The tokens of members with commas between two of them. -/
def memberTokens : List (String × Json) → List Token
  | [] => []
  | [(name, v)] => [.string name, .colon, scalarToken v]
  | (name, v) :: next :: rest =>
    .string name :: .colon :: scalarToken v :: .comma :: memberTokens (next :: rest)

theorem build_scalar {v : Json} (h : isScalar v = true) (frames : List Frame) (rest : List Token) :
    build .value frames (scalarToken v :: rest) = build (.after v) frames rest := by
  cases v with
  | array items => cases h
  | object members => cases h
  | null | bool | integer | float | string => simp [scalarToken, build]

/-- A table with several keys set one after the other. -/
def setAll (done members : List (String × Json)) : List (String × Json) :=
  members.foldl (fun done e => Table.set e.1 e.2 done) done

/-- Keys that are new and distinct go to the end in their order. -/
theorem setAll_of_nodup {done members : List (String × Json)}
    (h : ((done ++ members).map Prod.fst).Nodup) : setAll done members = done ++ members := by
  induction members generalizing done with
  | nil => simp [setAll]
  | cons e rest ih =>
    have hnew : e.1 ∉ done.map Prod.fst := by
      intro hmem
      rw [List.map_append, List.nodup_append] at h
      exact h.2.2 e.1 hmem e.1 (by simp) rfl
    have hset : Table.set e.1 e.2 done = done ++ [e] := Table.set_of_not_mem hnew
    have hrest : ((done ++ [e] ++ rest).map Prod.fst).Nodup := by
      simpa using h
    have ih := ih hrest
    rw [setAll] at ih
    rw [setAll, List.foldl_cons, hset, ih, List.append_assoc, List.singleton_append]

/-- The members of an object are set one after the other. -/
theorem build_memberTokens {members : List (String × Json)} (hne : members ≠ [])
    (h : ∀ e ∈ members, isScalar e.2 = true) (done : List (String × Json)) (frames : List Frame)
    (rest : List Token) :
    build (.name done) frames (memberTokens members ++ .endObject :: rest) =
      build (.after (.object (setAll done members))) frames rest := by
  induction members generalizing done with
  | nil => exact absurd rfl hne
  | cons e more ih =>
    obtain ⟨name, v⟩ := e
    have hv : isScalar v = true := h (name, v) (by simp)
    cases more with
    | nil =>
      simp only [memberTokens, List.cons_append, List.nil_append, build]
      rw [build_scalar hv]
      simp only [build]
      rfl
    | cons next more =>
      have ih := ih (by simp) (fun e he => h e (by simp [he])) (Table.set name v done)
      simp only [memberTokens, List.cons_append, build]
      rw [build_scalar hv]
      simp only [build]
      rw [ih]
      rfl

/-- **The tokens of an object with distinct names are read as that object.** -/
theorem build_object {members : List (String × Json)} (hne : members ≠ [])
    (h : ∀ e ∈ members, isScalar e.2 = true) (hnames : (members.map Prod.fst).Nodup) :
    build .value [] (.beginObject :: (memberTokens members ++ [.endObject])) =
      some (.object members) := by
  have hopen : build .value [] (.beginObject :: (memberTokens members ++ [.endObject])) =
      build .firstName [] (memberTokens members ++ [.endObject]) := by
    simp [build, mayOpen, maxDepth]
  -- Behind the brace that opens the object only a first name may stand, which is read as any other.
  have hfirst : build .firstName [] (memberTokens members ++ [.endObject]) =
      build (.name []) [] (memberTokens members ++ [.endObject]) := by
    cases members with
    | nil => exact absurd rfl hne
    | cons e more =>
      obtain ⟨name, v⟩ := e
      cases more <;> simp [memberTokens, build]
  rw [hopen, hfirst, build_memberTokens hne h, setAll_of_nodup (by simpa using hnames)]
  simp [build]

end ArtifactIdentity.Json
