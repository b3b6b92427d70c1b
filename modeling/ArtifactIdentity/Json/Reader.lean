import ArtifactIdentity.Json.Token
import ArtifactIdentity.Table

/-!
# Reading JSON

A document is cut into tokens and the tokens are put together again as one value. The containers that are
still open are kept in a stack, so that reading takes one step for each token and the depth of nesting is
the height of the stack; documents nested deeper than 1024 are refused. Of two members of one name the
later one counts.
-/

namespace ArtifactIdentity.Json

/-! ## Every token takes something -/

theorem length_spanDigits (cs : List Char) : (spanDigits cs).2.length ≤ cs.length :=
  (List.dropWhile_sublist Text.isDigit).length_le

theorem consChar_eq_some_iff {c : Char} {r : Option (List Char × List Char)}
    {cs rest : List Char} :
    consChar c r = some (cs, rest) ↔ ∃ text, r = some (text, rest) ∧ c :: text = cs := by
  cases r with
  | none => simp [consChar]
  | some p =>
    simp only [consChar, Option.some.injEq, Prod.ext_iff]
    grind

theorem length_scanString {cs text rest : List Char} (h : scanString cs = some (text, rest)) :
    rest.length < cs.length := by
  fun_induction scanString cs generalizing text
  all_goals try simp only [consChar_eq_some_iff] at h
  all_goals try simp only [List.length_cons]
  all_goals grind

theorem length_scanFraction {cs rest : List Char} {fraction : Option (List Char)}
    (h : scanFraction cs = some (fraction, rest)) : rest.length ≤ cs.length := by
  have := length_spanDigits
  unfold scanFraction at h
  grind

theorem length_scanExponent {cs rest : List Char} {exponent : Option Int}
    (h : scanExponent cs = some (exponent, rest)) : rest.length ≤ cs.length := by
  have := length_spanDigits
  unfold scanExponent at h
  grind

theorem length_scanUnsigned {negative : Bool} {cs rest : List Char} {value : Json}
    (h : scanUnsigned negative cs = some (value, rest)) : rest.length < cs.length := by
  have hspan : (spanDigits cs).1 ≠ [] → (spanDigits cs).2.length < cs.length := by
    intro hne
    have := congrArg List.length (List.takeWhile_append_dropWhile (p := Text.isDigit) (l := cs))
    have hpos := List.length_pos_iff.2 hne
    simp only [List.length_append, spanDigits] at *
    omega
  simp only [scanUnsigned] at h
  split at h
  · simp at h
  · split at h
    · simp at h
    · rename_i hf
      have := length_scanFraction hf
      split at h
      · simp at h
      · rename_i he
        have := length_scanExponent he
        grind [Option.map_eq_some_iff]

/-- What follows a token is shorter than what began with it. -/
theorem length_scanToken {cs rest : List Char} {token : Token}
    (h : scanToken cs = some (token, rest)) : rest.length < cs.length := by
  unfold scanToken at h
  split at h <;> grind [→ length_scanString, → length_scanUnsigned, Option.map_eq_some_iff]

/-! ## Tokens of a document -/

/-- The tokens of a document, if there is nothing else in it. -/
def tokens : List Char → Option (List Token)
  | [] => some []
  | c :: cs =>
    if isSpace c then tokens cs
    else
      match _h : scanToken (c :: cs) with
      | none => none
      | some (token, rest) => (tokens rest).map (token :: ·)
termination_by cs => cs.length
decreasing_by
  · simp
  · exact length_scanToken _h

/-! ## From tokens to a value -/

/-- A container that is still open: the items of an array in reverse, or the members of an object before
the one of the given name. -/
inductive Frame where
  | items (done : List Json)
  | member (done : List (String × Json)) (name : String)

inductive Expected where
  /-- The value of a member, the next item of an array, or the whole document. -/
  | value
  /-- The first item of an array, or its end. -/
  | firstItem
  /-- The first name of an object, or its end. -/
  | firstName
  /-- A further name, after the members that are done. -/
  | name (done : List (String × Json))
  | colon (done : List (String × Json)) (name : String)
  /-- Whatever follows a complete value. -/
  | after (value : Json)

/-- The most containers that may be open at a time. -/
def maxDepth : Nat :=
  1024

/-- A container may be opened in front of the rest of a document. -/
def mayOpen (frames : List Frame) : Bool :=
  frames.length < maxDepth

/-- The value of a document from its tokens, given what is open and what may come next. -/
def build : Expected → List Frame → List Token → Option Json
  | .after v, [], [] => some v
  | .after v, .items done :: frames, .comma :: rest => build .value (.items (v :: done) :: frames) rest
  | .after v, .items done :: frames, .endArray :: rest =>
    build (.after (.array (v :: done).reverse)) frames rest
  | .after v, .member done name :: frames, .comma :: rest =>
    build (.name (Table.set name v done)) frames rest
  | .after v, .member done name :: frames, .endObject :: rest =>
    build (.after (.object (Table.set name v done))) frames rest
  | .firstItem, .items _ :: frames, .endArray :: rest => build (.after (.array [])) frames rest
  | .value, frames, .literal v :: rest | .firstItem, frames, .literal v :: rest =>
    build (.after v) frames rest
  | .value, frames, .string s :: rest | .firstItem, frames, .string s :: rest =>
    build (.after (.string s)) frames rest
  | .value, frames, .beginArray :: rest | .firstItem, frames, .beginArray :: rest =>
    if mayOpen frames then build .firstItem (.items [] :: frames) rest else none
  | .value, frames, .beginObject :: rest | .firstItem, frames, .beginObject :: rest =>
    if mayOpen frames then build .firstName frames rest else none
  | .firstName, frames, .endObject :: rest => build (.after (.object [])) frames rest
  | .firstName, frames, .string s :: rest => build (.colon [] s) frames rest
  | .name done, frames, .string s :: rest => build (.colon done s) frames rest
  | .colon done name, frames, .colon :: rest => build .value (.member done name :: frames) rest
  | _, _, _ => none

def ofChars? (cs : List Char) : Option Json :=
  tokens cs >>= build .value []

/-- Bytes read as one JSON value; they have to be UTF-8. -/
def ofBytes? (data : ByteArray) : Option Json :=
  String.fromUTF8? data >>= fun s => ofChars? s.toList

end ArtifactIdentity.Json
