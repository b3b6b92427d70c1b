import ArtifactIdentity.Literal.Written

/-!
# Malformed identities

A literal that cannot form a valid field is refused with the field, the literal and a reason. The message
shows the literal, which is impossible where an integer inside it has too many digits; then the limit on
digits is the fault instead.
-/

namespace ArtifactIdentity

structure Malformed where
  field : String
  literal : Literal
  reason : String

/-- The field and the literal, then the reason in parentheses where there is one. -/
def Malformed.message (m : Malformed) : String :=
  "Malformed " ++ m.field ++ ": " ++ m.literal.written ++
    (if m.reason = "" then "" else " (" ++ m.reason ++ ")")

/-- The limit of 4300 decimal digits, met while a text is read as an integer or while an integer is
written as a text. -/
inductive DigitLimit where
  | reading (digits : Nat)
  | writing
deriving DecidableEq

def DigitLimit.message : DigitLimit → String
  | .reading digits =>
    "Exceeds the limit (4300 digits) for integer string conversion: value has " ++
      Text.decimalText digits ++ " digits; use sys.set_int_max_str_digits() to increase the limit"
  | .writing =>
    "Exceeds the limit (4300 digits) for integer string conversion; " ++
      "use sys.set_int_max_str_digits() to increase the limit"

inductive Fault where
  | malformed (m : Malformed)
  | digits (limit : DigitLimit)

def Fault.message : Fault → String
  | .malformed m => m.message
  | .digits limit => limit.message

/-- The fault of a literal with a reason against it: a malformed identity where the literal can be
shown. -/
def Fault.of (field : String) (literal : Literal) (reason : String) : Fault :=
  if literal.isWritable then .malformed ⟨field, literal, reason⟩ else .digits .writing

def refuse {α : Type} (field : String) (literal : Literal) (reason : String) : Except Fault α :=
  .error (Fault.of field literal reason)

/-- A literal that can be shown is refused as malformed. -/
theorem Fault.of_writable {field : String} {literal : Literal} {reason : String}
    (h : literal.isWritable = true) :
    Fault.of field literal reason = .malformed ⟨field, literal, reason⟩ := by
  simp [Fault.of, h]

end ArtifactIdentity
