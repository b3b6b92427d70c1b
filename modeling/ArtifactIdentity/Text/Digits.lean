/-!
# Digits

Natural numbers as digits: decimal without leading zeros, hexadecimal padded to a width, and the value of
a row of digits in any base up to sixteen.
-/

namespace ArtifactIdentity.Text

/-- One of the ten ASCII digits. -/
def isDigit (c : Char) : Bool :=
  '0' ≤ c && c ≤ '9'

/-- An ASCII hexadecimal digit, in either case. -/
def isHexDigit (c : Char) : Bool :=
  isDigit c || ('a' ≤ c && c ≤ 'f') || ('A' ≤ c && c ≤ 'F')

/-- The value of a hexadecimal digit; decimal digits are among them. -/
def digitValue (c : Char) : Nat :=
  if isDigit c then c.toNat - 48
  else if 'a' ≤ c && c ≤ 'f' then c.toNat - 87
  else c.toNat - 55

/-- The digit of a value below sixteen, in lower case. -/
def digitOf (n : Nat) : Char :=
  if n < 10 then Char.ofNat (48 + n) else Char.ofNat (87 + n)

/-- The number that a row of digits stands for. -/
def valueOf (base : Nat) (digits : List Char) : Nat :=
  digits.foldl (fun n c => n * base + digitValue c) 0

/-- The decimal digits of a number, the most significant first. -/
def decimal (n : Nat) : List Char :=
  if n < 10 then [digitOf n] else decimal (n / 10) ++ [digitOf (n % 10)]
termination_by n
decreasing_by omega

def decimalText (n : Nat) : String :=
  String.ofList (decimal n)

/-- The decimal text of an integer, with a minus sign below zero. -/
def integerText (n : Int) : String :=
  if n < 0 then "-" ++ decimalText n.natAbs else decimalText n.natAbs

/-- The last `width` hexadecimal digits of a number, with leading zeros. -/
def hexPadded : (width : Nat) → Nat → List Char
  | 0, _ => []
  | width + 1, n => hexPadded width (n / 16) ++ [digitOf (n % 16)]

/-- A number in decimal with zeros in front up to a width. -/
def decimalPadded (width n : Nat) : String :=
  let digits := decimal n
  String.ofList (List.replicate (width - digits.length) '0' ++ digits)

theorem digitValue_digitOf {n : Nat} (h : n < 16) : digitValue (digitOf n) = n := by
  have : ∀ m : Fin 16, digitValue (digitOf m.1) = m.1 := by decide
  exact this ⟨n, h⟩

theorem isDigit_digitOf {n : Nat} (h : n < 10) : isDigit (digitOf n) = true := by
  have : ∀ m : Fin 10, isDigit (digitOf m.1) = true := by decide
  exact this ⟨n, h⟩

theorem valueOf_append_singleton (base : Nat) (digits : List Char) (c : Char) :
    valueOf base (digits ++ [c]) = valueOf base digits * base + digitValue c := by
  simp [valueOf, List.foldl_append]

theorem decimal_of_lt {n : Nat} (h : n < 10) : decimal n = [digitOf n] := by
  rw [decimal, if_pos h]

theorem decimal_of_le {n : Nat} (h : 10 ≤ n) :
    decimal n = decimal (n / 10) ++ [digitOf (n % 10)] := by
  rw [decimal, if_neg (by omega)]

/-- Reading the decimal digits of a number gives the number. -/
theorem valueOf_decimal (n : Nat) : valueOf 10 (decimal n) = n := by
  induction n using Nat.strongRecOn with
  | _ n ih =>
    by_cases h : n < 10
    · rw [decimal_of_lt h]
      simp [valueOf, digitValue_digitOf (by omega : n < 16)]
    · rw [decimal_of_le (by omega), valueOf_append_singleton, ih (n / 10) (by omega),
        digitValue_digitOf (by omega)]
      omega

theorem all_isDigit_decimal (n : Nat) : (decimal n).all isDigit = true := by
  induction n using Nat.strongRecOn with
  | _ n ih =>
    by_cases h : n < 10
    · rw [decimal_of_lt h]
      simp [isDigit_digitOf h]
    · rw [decimal_of_le (by omega)]
      simp [ih (n / 10) (by omega), isDigit_digitOf (by omega : n % 10 < 10)]

theorem length_hexPadded (width n : Nat) : (hexPadded width n).length = width := by
  induction width generalizing n with
  | zero => rfl
  | succ width ih => simp [hexPadded, ih]

/-- Reading the padded hexadecimal digits gives the number modulo what the width can hold. -/
theorem valueOf_hexPadded (width n : Nat) : valueOf 16 (hexPadded width n) = n % Nat.pow 16 width := by
  simp only [Nat.pow_eq]
  induction width generalizing n with
  | zero => simp [hexPadded, valueOf, Nat.mod_one]
  | succ width ih =>
    rw [hexPadded, valueOf_append_singleton, ih, digitValue_digitOf (by omega), Nat.pow_succ,
      Nat.mul_comm (16 ^ width) 16, Nat.mod_mul]
    omega

end ArtifactIdentity.Text
