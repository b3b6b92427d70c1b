import ArtifactIdentity.Toml.Basic

/-!
# TOML strings

Strings come in four kinds: with escapes between double quotes or as they stand between single ones, and
either on one line or, between three quotes, on several. Of a string on several lines a first line break
is dropped, a backslash at the end of a line drops the break and all white space after it, and up to two
quotes may stand right before the closing three.
-/

namespace ArtifactIdentity.Toml

def shortEscape? : Char → Option Char
  | 'b' => some '\x08'
  | 't' => some '\t'
  | 'n' => some '\n'
  | 'f' => some '\x0c'
  | 'r' => some '\r'
  | '"' => some '"'
  | '\\' => some '\\'
  | _ => none

/-- The character of a numeric escape; surrogates and numbers beyond the last character have none. -/
def numbered? (digits : List Char) : Option Char :=
  let n := Text.valueOf 16 digits
  if digits.all Text.isHexDigit && n < 0x110000 && !(0xD800 ≤ n && n ≤ 0xDFFF) then
    some (Char.ofNat n)
  else none

/-- A string between single quotes, from behind the opening one. -/
def scanPlainText : List Char → Scan (List Char)
  | [] => malformed
  | '\'' :: rest => .ok ([], rest)
  | c :: rest => if isForbidden c then malformed else consChar c (scanPlainText rest)

/-- A string between double quotes, from behind the opening one. -/
def scanText : List Char → Scan (List Char)
  | [] => malformed
  | '"' :: rest => .ok ([], rest)
  | '\\' :: 'u' :: a :: b :: c :: d :: rest =>
    match numbered? [a, b, c, d] with
    | some x => consChar x (scanText rest)
    | none => malformed
  | '\\' :: 'U' :: a :: b :: c :: d :: e :: f :: g :: h :: rest =>
    match numbered? [a, b, c, d, e, f, g, h] with
    | some x => consChar x (scanText rest)
    | none => malformed
  | '\\' :: letter :: rest =>
    match shortEscape? letter with
    | some x => consChar x (scanText rest)
    | none => malformed
  | c :: rest => if c = '\\' || isForbidden c then malformed else consChar c (scanText rest)

/-- Up to two quotes that stand behind the closing three belong to the string. -/
def closing (quote : Char) : List Char → List Char × List Char
  | a :: b :: rest =>
    if a ≠ quote then ([], a :: b :: rest)
    else if b ≠ quote then ([quote], b :: rest)
    else ([quote, quote], rest)
  | [a] => if a = quote then ([quote], []) else ([], [a])
  | [] => ([], [])

/-- A string between three single quotes, from behind the opening ones. -/
def scanPlainLines : List Char → Scan (List Char)
  | [] => malformed
  | '\'' :: '\'' :: '\'' :: rest => .ok (closing '\'' rest)
  | c :: rest => if isForbiddenInLines c then malformed else consChar c (scanPlainLines rest)

/-- What a backslash at the end of a line asks for. -/
inductive Folding where
  | none
  /-- The line has to end, but for gaps. -/
  | lineEnd
  /-- All white space is dropped. -/
  | blank
deriving DecidableEq

/-- A string between three double quotes, from behind the opening ones. -/
def scanLines : Folding → List Char → Scan (List Char)
  | _, [] => malformed
  | .lineEnd, c :: rest =>
    if isGap c then scanLines .lineEnd rest
    else if c = '\n' then scanLines .blank rest
    else malformed
  | _, '"' :: '"' :: '"' :: rest => .ok (closing '"' rest)
  | _, '\\' :: 'u' :: a :: b :: c :: d :: rest =>
    match numbered? [a, b, c, d] with
    | some x => consChar x (scanLines .none rest)
    | none => malformed
  | _, '\\' :: 'U' :: a :: b :: c :: d :: e :: f :: g :: h :: rest =>
    match numbered? [a, b, c, d, e, f, g, h] with
    | some x => consChar x (scanLines .none rest)
    | none => malformed
  | _, '\\' :: letter :: rest =>
    if isGap letter then scanLines .lineEnd rest
    else if letter = '\n' then scanLines .blank rest
    else
      match shortEscape? letter with
      | some x => consChar x (scanLines .none rest)
      | none => malformed
  | folding, c :: rest =>
    if folding = .blank && (isGap c || c = '\n') then scanLines .blank rest
    else if c = '\\' || isForbiddenInLines c then malformed
    else consChar c (scanLines .none rest)

def skipLineBreak : List Char → List Char
  | '\n' :: rest => rest
  | cs => cs

/-- A string of any kind, if the text begins with a quote. -/
def scanAnyText : List Char → Option (Scan (List Char))
  | '"' :: '"' :: '"' :: rest => some (scanLines .none (skipLineBreak rest))
  | '"' :: rest => some (scanText rest)
  | '\'' :: '\'' :: '\'' :: rest => some (scanPlainLines (skipLineBreak rest))
  | '\'' :: rest => some (scanPlainText rest)
  | _ => none

end ArtifactIdentity.Toml
