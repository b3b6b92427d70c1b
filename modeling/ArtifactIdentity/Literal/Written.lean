import ArtifactIdentity.Identity.IdNumber
import ArtifactIdentity.Literal.Basic
import ArtifactIdentity.Number.Shortest
import ArtifactIdentity.Text.Quoted

/-!
# How a literal is shown

A message shows a literal in a form that tells its kind: texts in quotes, bytes in quotes behind a `b`,
lists, tuples and tables in brackets, dates by their parts, other sequences in the form they bring along. In a
log line a literal that stands for itself (a text, an identifier, a version) is shown plainly instead. An
integer of more than 4300 digits is never shown.
-/

namespace ArtifactIdentity

/-- The numbers of a date or time in parentheses behind the name of its kind. -/
def partsText (kind : String) (parts : List String) : String :=
  "datetime." ++ kind ++ "(" ++ ", ".intercalate parts ++ ")"

/-- Hour and minute; the second where it or the microsecond is not zero; the microsecond where it is
not. -/
def TimeOfDay.partTexts (t : TimeOfDay) : List String :=
  let numbers :=
    if t.microsecond ≠ 0 then [t.hour, t.minute, t.second, t.microsecond]
    else if t.second ≠ 0 then [t.hour, t.minute, t.second]
    else [t.hour, t.minute]
  numbers.map Text.decimalText

def Date.partTexts (d : Date) : List String :=
  [d.year, d.month, d.day].map Text.decimalText

/-- An offset by its seconds; a negative one as a day back and the seconds of that day. -/
def offsetParts (minutes : Int) : String :=
  if minutes = 0 then "datetime.timezone.utc"
  else
    let seconds :=
      if minutes < 0 then "days=-1, seconds=" ++ Text.integerText (86400 + 60 * minutes)
      else "seconds=" ++ Text.integerText (60 * minutes)
    "datetime.timezone(datetime.timedelta(" ++ seconds ++ "))"

/-- The parts of the date, then those of the time, then the offset. -/
def Moment.partTexts (m : Moment) : List String :=
  m.date.partTexts ++ m.time.partTexts ++
    (m.offset.map fun minutes => "tzinfo=" ++ offsetParts minutes).toList

namespace Literal

mutual

def written : Literal → String
  | .absent => "None"
  | .flag b => if b then "True" else "False"
  | .integer n => Text.integerText n
  | .float x => x.text
  | .text s => Text.quoted s
  | .bytes d => "b" ++ Text.quotedBytes d
  | .buffer d => "bytearray(b" ++ Text.quotedBuffer d ++ ")"
  | .uuid n => "UUID('" ++ IdNumber.text n ++ "')"
  | .date d => partsText "date" d.partTexts
  | .time t => partsText "time" t.partTexts
  | .moment m => partsText "datetime" m.partTexts
  | .list items => "[" ++ ", ".intercalate (writtenItems items) ++ "]"
  | .tuple [item] => "(" ++ item.written ++ ",)"
  | .tuple items => "(" ++ ", ".intercalate (writtenItems items) ++ ")"
  | .quad a b c d =>
    "VersionQuad(major=" ++ a.written ++ ", minor=" ++ b.written ++ ", patch=" ++ c.written ++
      ", build=" ++ d.written ++ ")"
  | .sequence traits _ => traits.written?.getD ""
  | .table entries => "\x7b" ++ ", ".intercalate (writtenEntries entries) ++ "\x7d"

def writtenItems : List Literal → List String
  | [] => []
  | item :: rest => item.written :: writtenItems rest

/-- Every entry of a table, the name in quotes before its literal. -/
def writtenEntries : List (String × Literal) → List String
  | [] => []
  | (name, value) :: rest => (Text.quoted name ++ ": " ++ value.written) :: writtenEntries rest

end

/-- A literal as it reads in a sentence: texts, identifiers and versions stand for themselves. -/
def plain : Literal → String
  | .text s => s
  | .uuid n => IdNumber.text n
  | .date d => d.isoText
  | .time t => t.isoText
  | .moment m => m.date.isoText ++ " " ++ m.time.isoText ++ (m.offset.map offsetText).getD ""
  | .quad a b c d => a.plain ++ "." ++ b.plain ++ "." ++ c.plain ++ "." ++ d.plain
  | .sequence traits _ => traits.plain
  | other => other.written

/-- The first integer that has too many digits to be shown. -/
def integerLimit : Nat :=
  Nat.pow 10 4300

mutual

/-- Whether a literal can be shown: no integer inside it has more than 4300 digits. -/
def isWritable : Literal → Bool
  | .integer n => n.natAbs < integerLimit
  | .list items | .tuple items => areWritable items
  | .quad a b c d => a.isWritable && b.isWritable && c.isWritable && d.isWritable
  | .sequence traits _ => traits.written?.isSome
  | .table entries => entriesWritable entries
  | _ => true

def areWritable : List Literal → Bool
  | [] => true
  | item :: rest => item.isWritable && areWritable rest

def entriesWritable : List (String × Literal) → Bool
  | [] => true
  | (_, value) :: rest => value.isWritable && entriesWritable rest

end

end Literal

end ArtifactIdentity
