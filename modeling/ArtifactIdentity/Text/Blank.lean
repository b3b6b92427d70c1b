/-!
# Blank characters

The characters that count as white space when a literal is trimmed, when a required text is checked for
content and when a counterpart name is checked for gaps. It is the Unicode set of white space together
with the four information separators U+001C to U+001F; zero-width characters are not in it.
-/

namespace ArtifactIdentity.Text

/-- White space of any script: 29 characters. -/
def isBlank (c : Char) : Bool :=
  let n := c.toNat
  (0x09 ≤ n && n ≤ 0x0D) || (0x1C ≤ n && n ≤ 0x20) || n == 0x85 || n == 0xA0 || n == 0x1680 ||
    (0x2000 ≤ n && n ≤ 0x200A) || n == 0x2028 || n == 0x2029 || n == 0x202F || n == 0x205F ||
    n == 0x3000

def isBlankText (cs : List Char) : Bool :=
  cs.all isBlank

def trim (cs : List Char) : List Char :=
  ((cs.dropWhile isBlank).reverse.dropWhile isBlank).reverse

/-- Trimming nothing but white space leaves nothing. -/
theorem trim_eq_nil_of_isBlankText {cs : List Char} (h : isBlankText cs = true) : trim cs = [] := by
  have hall : ∀ c ∈ cs, isBlank c = true := by simpa [isBlankText] using h
  have : cs.dropWhile isBlank = [] := by
    induction cs with
    | nil => rfl
    | cons c r ih =>
      rw [List.dropWhile_cons_of_pos (hall c (by simp))]
      exact ih (by simpa [isBlankText] using fun x hx => hall x (by simp [hx]))
        (fun x hx => hall x (by simp [hx]))
  simp [trim, this]

end ArtifactIdentity.Text
