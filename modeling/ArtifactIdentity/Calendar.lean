import ArtifactIdentity.Text.Digits

/-!
# Dates and times

Calendar dates of the years 1 to 9999, times of day down to the microsecond, and both together with or
without an offset from universal time. Each has its ISO 8601 text.
-/

namespace ArtifactIdentity

/-- A date of the Gregorian calendar. -/
structure Date where
  year : Nat
  month : Nat
  day : Nat
deriving DecidableEq, Repr

structure TimeOfDay where
  hour : Nat
  minute : Nat
  second : Nat
  microsecond : Nat
deriving DecidableEq, Repr

/-- A date and a time of day; `offset` counts the minutes east of universal time, where it is known. -/
structure Moment where
  date : Date
  time : TimeOfDay
  offset : Option Int
deriving DecidableEq, Repr

/-- Every fourth year but of the centuries only every fourth. -/
def isLeapYear (year : Nat) : Bool :=
  year % 4 = 0 && (year % 100 != 0 || year % 400 = 0)

def daysInMonth (year month : Nat) : Nat :=
  if month = 2 then if isLeapYear year then 29 else 28
  else if month = 4 || month = 6 || month = 9 || month = 11 then 30
  else 31

def Date.isValid (d : Date) : Bool :=
  1 ≤ d.year && d.year ≤ 9999 && 1 ≤ d.month && d.month ≤ 12 && 1 ≤ d.day &&
    d.day ≤ daysInMonth d.year d.month

/-- Year, month and day, as in 2015-01-31. -/
def Date.isoText (d : Date) : String :=
  Text.decimalPadded 4 d.year ++ "-" ++ Text.decimalPadded 2 d.month ++ "-" ++
    Text.decimalPadded 2 d.day

/-- Hour, minute and second, with the microseconds where there are any. -/
def TimeOfDay.isoText (t : TimeOfDay) : String :=
  Text.decimalPadded 2 t.hour ++ ":" ++ Text.decimalPadded 2 t.minute ++ ":" ++
    Text.decimalPadded 2 t.second ++
    (if t.microsecond = 0 then "" else "." ++ Text.decimalPadded 6 t.microsecond)

/-- An offset as a sign, hours and minutes. -/
def offsetText (minutes : Int) : String :=
  (if minutes < 0 then "-" else "+") ++ Text.decimalPadded 2 (minutes.natAbs / 60) ++ ":" ++
    Text.decimalPadded 2 (minutes.natAbs % 60)

/-- Date and time with a `T` between them, then the offset where it is known. -/
def Moment.isoText (m : Moment) : String :=
  m.date.isoText ++ "T" ++ m.time.isoText ++ (m.offset.map offsetText).getD ""

example : (Date.mk 2000 2 29).isValid = true := by decide
example : (Date.mk 1900 2 29).isValid = false := by decide

end ArtifactIdentity
