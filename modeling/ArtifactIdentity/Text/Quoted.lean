import ArtifactIdentity.Text.Digits
import ArtifactIdentity.Text.Printable

/-!
# Quoted text

How a message shows a text or a row of bytes so that every character of it can be told. Single quotes
stand around it, double quotes where the text holds a single quote and no double one. The quote and the
backslash are escaped, line breaks and tabs have a letter, and what cannot be printed is shown by its
number in hexadecimal.
-/

namespace ArtifactIdentity.Text

def quoteFor (hasSingle hasDouble : Bool) : Char :=
  if hasSingle && !hasDouble then '"' else '\''

/-- A number as a backslash escape: two, four or eight hexadecimal digits, the fewest that hold it. -/
def numericEscape (n : Nat) : List Char :=
  if n < 0x100 then '\\' :: 'x' :: hexPadded 2 n
  else if n < 0x10000 then '\\' :: 'u' :: hexPadded 4 n
  else '\\' :: 'U' :: hexPadded 8 n

/-- One character inside quotes. -/
def escapeChar (quote c : Char) : List Char :=
  if c = quote || c = '\\' then ['\\', c]
  else if c = '\t' then ['\\', 't']
  else if c = '\n' then ['\\', 'n']
  else if c = '\r' then ['\\', 'r']
  else if isPrintable c then [c]
  else numericEscape c.toNat

def quoted (s : String) : String :=
  let cs := s.toList
  let quote := quoteFor (cs.contains '\'') (cs.contains '"')
  String.ofList (quote :: (cs.flatMap (escapeChar quote) ++ [quote]))

/-- One byte inside quotes: ASCII as text, every other byte by its number. -/
def escapeByte (quote : Char) (b : UInt8) : List Char :=
  let n := b.toNat
  if n < 0x80 then escapeChar quote (Char.ofNat n) else numericEscape n

def quoteForBytes (bytes : List UInt8) : Char :=
  quoteFor (bytes.contains 39) (bytes.contains 34)

def quotedBytes (data : ByteArray) : String :=
  let quote := quoteForBytes data.toList
  String.ofList (quote :: (data.toList.flatMap (escapeByte quote) ++ [quote]))

/-- A buffer of bytes in quotes: a single quote in it is escaped whichever quotes stand around. -/
def quotedBuffer (data : ByteArray) : String :=
  let quote := quoteForBytes data.toList
  String.ofList (quote :: (data.toList.flatMap (escapeByte '\'') ++ [quote]))

example : quoted "it's" = "\"it's\"" := by decide +kernel
example : quoted "a\"b'" = "'a\"b\\''" := by decide +kernel
example : quoted "\x00\u00a0\u3000" = "'\\x00\\xa0\\u3000'" := by decide +kernel

end ArtifactIdentity.Text
