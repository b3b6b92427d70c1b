import ArtifactIdentity.Text.Blank
import ArtifactIdentity.Text.Digits
import ArtifactIdentity.Text.Split

/-!
# Digits of a number

The digits of a number are digits and nothing else, so a text made of them is neither trimmed nor cut in a
wrong place. Decimal digits have no zero in front and are as few as the size of the number allows;
hexadecimal digits are as many as the width says.
-/

namespace ArtifactIdentity.Text

/-! ## Trimming and joining -/

/-- A text without any white space is trimmed to itself. -/
theorem trim_eq_self {cs : List Char} (h : ∀ c ∈ cs, isBlank c = false) : trim cs = cs := by
  have keep : ∀ ds : List Char, (∀ c ∈ ds, isBlank c = false) → ds.dropWhile isBlank = ds := by
    intro ds hds
    cases ds with
    | nil => rfl
    | cons c rest =>
      have hc : ¬ isBlank c = true := by simp [hds c (by simp)]
      rw [List.dropWhile_cons_of_neg hc]
  have hr : ∀ c ∈ cs.reverse, isBlank c = false := by
    intro c hc
    exact h c (List.mem_reverse.mp hc)
  rw [trim, keep cs h, keep cs.reverse hr, List.reverse_reverse]

/-- A character of a row of pieces is the separator or stands in a piece. -/
theorem mem_joinWith {sep c : Char} {pieces : List (List Char)} (h : c ∈ joinWith sep pieces) :
    c = sep ∨ ∃ p ∈ pieces, c ∈ p := by
  induction pieces with
  | nil => simp [joinWith] at h
  | cons p pieces ih =>
    cases pieces with
    | nil => exact Or.inr ⟨p, by simp, h⟩
    | cons next more =>
      rw [joinWith_cons _ _ (by simp)] at h
      rcases List.mem_append.mp h with h | h
      · exact Or.inr ⟨p, by simp, h⟩
      · rcases List.mem_cons.mp h with rfl | h
        · exact Or.inl rfl
        · rcases ih h with h | ⟨q, hq, hc⟩
          · exact Or.inl h
          · exact Or.inr ⟨q, List.mem_cons_of_mem _ hq, hc⟩

/-- A row of pieces has the characters of the pieces and a separator between two of them. -/
theorem length_joinWith (sep : Char) (pieces : List (List Char)) :
    (joinWith sep pieces).length = pieces.flatten.length + (pieces.length - 1) := by
  induction pieces with
  | nil => rfl
  | cons piece pieces ih =>
    cases pieces with
    | nil => simp [joinWith]
    | cons next more =>
      have hflatten : (piece :: next :: more).flatten.length =
          piece.length + (next :: more).flatten.length := List.length_append
      rw [joinWith_cons _ _ (List.cons_ne_nil _ _), List.length_append, List.length_cons, ih, hflatten]
      simp only [List.length_cons]
      omega

/-! ## Decimal digits -/

theorem isBlank_of_isDigit {c : Char} (h : isDigit c = true) : isBlank c = false := by
  simp only [isDigit, Bool.and_eq_true, decide_eq_true_eq] at h
  have low : 48 ≤ c.toNat := h.1
  have high : c.toNat ≤ 57 := h.2
  simp only [isBlank, Bool.or_eq_false_iff, Bool.and_eq_false_iff, decide_eq_false_iff_not,
    beq_eq_false_iff_ne]
  omega

theorem isDigit_of_mem_decimal {n : Nat} {c : Char} (h : c ∈ decimal n) : isDigit c = true :=
  List.all_eq_true.mp (all_isDigit_decimal n) c h

theorem decimal_ne_nil (n : Nat) : decimal n ≠ [] := by
  by_cases h : n < 10
  · simp [decimal_of_lt h]
  · simp [decimal_of_le (Nat.le_of_not_lt h)]

/-- A number below a power of ten has at most as many digits as the exponent says. -/
theorem length_decimal_le {k n : Nat} (hk : 0 < k) (h : n < Nat.pow 10 k) : (decimal n).length ≤ k := by
  rw [Nat.pow_eq] at h
  induction k generalizing n with
  | zero => omega
  | succ k ih =>
    by_cases hn : n < 10
    · simp [decimal_of_lt hn]
    · have hpos : 0 < k := by
        rcases Nat.eq_zero_or_pos k with rfl | hk
        · simp at h
          omega
        · exact hk
      have hlt : n / 10 < 10 ^ k := by
        rw [Nat.pow_succ] at h
        omega
      have := ih hpos hlt
      rw [decimal_of_le (Nat.le_of_not_lt hn), List.length_append, List.length_singleton]
      omega

/-- The first digit of a positive number is no zero. -/
theorem head?_decimal_ne_zero {n : Nat} (h : 0 < n) : (decimal n).head? ≠ some '0' := by
  induction n using Nat.strongRecOn with
  | _ n ih =>
    by_cases hn : n < 10
    · rw [decimal_of_lt hn]
      have : ∀ m : Fin 10, 0 < m.1 → [digitOf m.1].head? ≠ some '0' := by decide
      exact this ⟨n, hn⟩ h
    · have ih := ih (n / 10) (by omega) (by omega)
      rw [decimal_of_le (by omega)]
      cases hd : decimal (n / 10) with
      | nil => exact absurd hd (decimal_ne_nil (n / 10))
      | cons c cs => simpa [hd] using ih

/-! ## Hexadecimal digits -/

theorem isHexDigit_digitOf {n : Nat} (h : n < 16) : isHexDigit (digitOf n) = true := by
  have : ∀ m : Fin 16, isHexDigit (digitOf m.1) = true := by decide
  exact this ⟨n, h⟩

/-- A padded number consists of lower-case digits. -/
theorem exists_digitOf_of_mem_hexPadded {width n : Nat} {c : Char} (h : c ∈ hexPadded width n) :
    ∃ m < 16, c = digitOf m := by
  induction width generalizing n with
  | zero => simp [hexPadded] at h
  | succ width ih =>
    rcases List.mem_append.mp h with h | h
    · exact ih h
    · exact ⟨n % 16, Nat.mod_lt _ (by omega), List.mem_singleton.mp h⟩

theorem isHexDigit_of_mem_hexPadded {width n : Nat} {c : Char} (h : c ∈ hexPadded width n) :
    isHexDigit c = true := by
  obtain ⟨m, hm, rfl⟩ := exists_digitOf_of_mem_hexPadded h
  exact isHexDigit_digitOf hm

/-- The padded digits of a number say nothing of what the width cannot hold. -/
theorem hexPadded_mod (width n : Nat) : hexPadded width (n % Nat.pow 16 width) = hexPadded width n := by
  rw [Nat.pow_eq]
  induction width generalizing n with
  | zero => rfl
  | succ width ih =>
    have hdiv : n % 16 ^ (width + 1) / 16 = n / 16 % 16 ^ width := by
      rw [Nat.pow_succ, Nat.mul_comm, Nat.mod_mul_right_div_self]
    have hmod : n % 16 ^ (width + 1) % 16 = n % 16 :=
      Nat.mod_mod_of_dvd n ⟨16 ^ width, by rw [Nat.pow_succ, Nat.mul_comm]⟩
    rw [hexPadded, hexPadded, hdiv, hmod, ih]

end ArtifactIdentity.Text
