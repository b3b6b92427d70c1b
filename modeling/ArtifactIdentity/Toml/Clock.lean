import ArtifactIdentity.Calendar
import ArtifactIdentity.Toml.Basic

/-!
# TOML dates and times

A date, a time of day, or both with a `T` or a space between them and perhaps an offset. Seconds may have
a fraction, of which six digits count. A date that the calendar does not have makes the document
malformed; where the time behind a date is no time the date stands alone.
-/

namespace ArtifactIdentity.Toml

def scanTwo (low high : Nat) : List Char → Option (Nat × List Char)
  | a :: b :: rest =>
    if Text.isDigit a && Text.isDigit b then
      let n := Text.valueOf 10 [a, b]
      if low ≤ n && n ≤ high then some (n, rest) else none
    else none
  | _ => none

/-- One character that has to be there. -/
def expect (c : Char) : List Char → Option (List Char)
  | d :: rest => if d = c then some rest else none
  | [] => none

def microseconds (digits : List Char) : Nat :=
  let six := digits.take 6
  Text.valueOf 10 (six ++ List.replicate (6 - six.length) '0')

/-- A fraction of a second, zero where there is none. -/
def scanMicroseconds : List Char → Nat × List Char
  | '.' :: rest =>
    match rest.takeWhile Text.isDigit with
    | [] => (0, '.' :: rest)
    | digits => (microseconds digits, rest.dropWhile Text.isDigit)
  | cs => (0, cs)

def scanTime (cs : List Char) : Option (TimeOfDay × List Char) := do
  let (hour, cs) ← scanTwo 0 23 cs
  let cs ← expect ':' cs
  let (minute, cs) ← scanTwo 0 59 cs
  let cs ← expect ':' cs
  let (second, cs) ← scanTwo 0 59 cs
  let (microsecond, cs) := scanMicroseconds cs
  return (⟨hour, minute, second, microsecond⟩, cs)

/-- A date, which the calendar may not have. -/
def scanDate (cs : List Char) : Option (Date × List Char) := do
  let (century, cs) ← scanTwo 0 99 cs
  let (year, cs) ← scanTwo 0 99 cs
  let cs ← expect '-' cs
  let (month, cs) ← scanTwo 1 12 cs
  let cs ← expect '-' cs
  let (day, cs) ← scanTwo 1 31 cs
  return (⟨100 * century + year, month, day⟩, cs)

def scanHours (cs : List Char) : Option (Nat × List Char) := do
  let (hours, cs) ← scanTwo 0 23 cs
  let cs ← expect ':' cs
  let (minutes, cs) ← scanTwo 0 59 cs
  return (60 * hours + minutes, cs)

def scanOffset : List Char → Option Int × List Char
  | [] => (none, [])
  | c :: rest =>
    if c = 'Z' || c = 'z' then (some 0, rest)
    else
      match c, scanHours rest with
      | '+', some (minutes, rest) => (some minutes, rest)
      | '-', some (minutes, rest) => (some (-(minutes : Int)), rest)
      | _, _ => (none, c :: rest)

/-- What stands behind a date: a time and an offset, or nothing that belongs to it. -/
def scanBehindDate (date : Date) : List Char → Literal × List Char
  | [] => (.date date, [])
  | c :: rest =>
    match c = 'T' || c = 't' || c = ' ', scanTime rest with
    | true, some (time, rest) =>
      let (offset, rest) := scanOffset rest
      (.moment ⟨date, time, offset⟩, rest)
    | _, _ => (.date date, c :: rest)

/-- A date or a time, if the text begins with one. -/
def scanClock (cs : List Char) : Option (Scan Literal) :=
  match scanDate cs with
  | some (date, rest) =>
    some (if date.isValid then .ok (scanBehindDate date rest) else malformed)
  | none => (scanTime cs).map fun (time, rest) => .ok (.time time, rest)

end ArtifactIdentity.Toml
