import ArtifactIdentity.Json.Token

/-!
# Writing JSON

How a scalar is written: strings between double quotes with the quote, the backslash and the control
characters escaped and every other character as it is, integers in decimal, and the three words. Reading
a written string gives its characters back.
-/

namespace ArtifactIdentity.Json

/-- The letter of a control character that has a short escape. -/
def escapeLetter? : Char → Option Char
  | '"' => some '"'
  | '\\' => some '\\'
  | '\x08' => some 'b'
  | '\t' => some 't'
  | '\n' => some 'n'
  | '\x0c' => some 'f'
  | '\r' => some 'r'
  | _ => none

def escape (c : Char) : List Char :=
  match escapeLetter? c with
  | some letter => ['\\', letter]
  | none => if c.toNat < 0x20 then '\\' :: 'u' :: Text.hexPadded 4 c.toNat else [c]

def stringChars (cs : List Char) : List Char :=
  '"' :: (cs.flatMap escape ++ ['"'])

def flagChars (b : Bool) : List Char :=
  if b then ['t', 'r', 'u', 'e'] else ['f', 'a', 'l', 's', 'e']

def nullChars : List Char :=
  ['n', 'u', 'l', 'l']

/-! ## Reading what was written -/

/-- The four digits of a control character are read as its number. -/
theorem unit?_hexPadded {n : Nat} (h : n < 32) :
    ∃ a b c d, Text.hexPadded 4 n = [a, b, c, d] ∧ unit? a b c d = some n := by
  have : ∀ m : Fin 32, ∃ a b c d,
      Text.hexPadded 4 m.1 = [a, b, c, d] ∧ unit? a b c d = some m.1 := by
    intro m
    refine ⟨_, _, _, _, rfl, ?_⟩
    revert m
    decide
  exact this ⟨n, h⟩

/-- A written character is read as that character, whatever follows. -/
theorem scanString_escape (c : Char) (rest : List Char) :
    scanString (escape c ++ rest) = consChar c (scanString rest) := by
  unfold escape
  split
  · rename_i letter h
    unfold escapeLetter? at h
    split at h <;> simp only [Option.some.injEq, reduceCtorEq] at h <;> subst h <;>
      simp [scanString, shortEscape?]
  · rename_i h
    split
    · rename_i hc
      obtain ⟨a, b, d, e, hx, hu⟩ := unit?_hexPadded hc
      rw [hx]
      have h1 : isLowSurrogate c.toNat = false := by simp [isLowSurrogate]; omega
      have h2 : isHighSurrogate c.toNat = false := by simp [isHighSurrogate]; omega
      simp [scanString, hu, h1, h2]
    · rename_i hc
      have hq : c ≠ '"' := by rintro rfl; simp [escapeLetter?] at h
      have hb : c ≠ '\\' := by rintro rfl; simp [escapeLetter?] at h
      simp [scanString, hb, hc]

/-- A written string is read up to its closing quote. -/
theorem scanString_stringChars (cs rest : List Char) :
    scanString (cs.flatMap escape ++ '"' :: rest) = some (cs, rest) := by
  induction cs with
  | nil => simp [scanString]
  | cons c cs ih =>
    rw [List.flatMap_cons, List.append_assoc, scanString_escape, ih]
    rfl

end ArtifactIdentity.Json
