import ArtifactIdentity.Table
import ArtifactIdentity.Toml.Clock
import ArtifactIdentity.Toml.Number
import ArtifactIdentity.Toml.Text

/-!
# TOML keys and values

A key is a row of names with dots between them; a name is bare, made of ASCII letters, digits, hyphens and
underscores, or a string of one line. A value is a scalar, an array, or an inline table, whose keys may be
dotted as well but may neither be set twice nor reach into a value that is complete.
-/

namespace ArtifactIdentity.Toml

abbrev Key : Type := List String

def isBare (c : Char) : Bool :=
  Text.isDigit c || ('a' ≤ c && c ≤ 'z') || ('A' ≤ c && c ≤ 'Z') || c = '-' || c = '_'

def scanName : List Char → Scan String
  | '"' :: rest => (scanText rest).map fun (cs, rest) => (String.ofList cs, rest)
  | '\'' :: rest => (scanPlainText rest).map fun (cs, rest) => (String.ofList cs, rest)
  | cs =>
    match cs.takeWhile isBare with
    | [] => malformed
    | name => .ok (String.ofList name, cs.dropWhile isBare)

/-- A key, from its first name. Every further name takes one of the `names` that there may be. -/
def scanKey : (names : Nat) → List Char → Except Flaw (Key × List Char)
  | 0, _ => malformed
  | names + 1, cs => do
    let (name, rest) ← scanName cs
    match skipGap rest with
    | '.' :: rest => do
      let (key, rest) ← scanKey names (skipGap rest)
      return (name :: key, rest)
    | rest => return ([name], rest)

/-! ## Nested tables -/

/-- A table with the table that names lead to changed, and missing tables made on the way. Where
`throughArrays` is set a name may lead to an array of tables and stands for its last table. -/
def changeTable (throughArrays : Bool) (change : Entries → Except Flaw Entries) :
    Key → Entries → Except Flaw Entries
  | [], entries => change entries
  | name :: key, entries =>
    match entries.lookup name with
    | none =>
      (changeTable throughArrays change key []).map fun table =>
        Table.set name (.table table) entries
    | some (.table table) =>
      (changeTable throughArrays change key table).map fun table =>
        Table.set name (.table table) entries
    | some (.list items) =>
      match throughArrays, items.getLast? with
      | true, some (.table table) =>
        (changeTable throughArrays change key table).map fun table =>
          Table.set name (.list (items.dropLast ++ [.table table])) entries
      | _, _ => malformed
    | some _ => malformed

/-- A table with a value under a name that it does not have yet. -/
def addValue (name : String) (value : Literal) (entries : Entries) : Except Flaw Entries :=
  if Table.has name entries then malformed else .ok (Table.set name value entries)

def addAt (throughArrays : Bool) (key : Key) (value : Literal) (entries : Entries) :
    Except Flaw Entries :=
  match key.getLast? with
  | some name => changeTable throughArrays (addValue name value) key.dropLast entries
  | none => malformed

/-- Whether a value is complete where it is written, so that no later key reaches into it. -/
def isComplete : Literal → Bool
  | .list _ | .table _ => true
  | _ => false

/-- Whether one of several keys leads to a key or to a table around it. -/
def covers (keys : List Key) (key : Key) : Bool :=
  keys.any (·.isPrefixOf key)

/-! ## Values -/

def scanScalar (cs : List Char) : Scan Literal :=
  match scanAnyText cs with
  | some scan => scan.map fun (text, rest) => (.text (String.ofList text), rest)
  | none =>
    match cs with
    | 't' :: 'r' :: 'u' :: 'e' :: rest => .ok (.flag true, rest)
    | 'f' :: 'a' :: 'l' :: 's' :: 'e' :: rest => .ok (.flag false, rest)
    | _ =>
      match scanClock cs with
      | some scan => scan
      | none =>
        match scanBased cs with
        | some scan => .ok scan
        | none =>
          match scanDecimal cs with
          | some scan => scan
          | none =>
            match scanSpecial cs with
            | some scan => .ok scan
            | none => malformed

mutual

/-- A value; `fuel` bounds the steps and is enough at twice the length of the text and two. -/
def scanValue : (fuel : Nat) → List Char → Except Flaw (Literal × List Char)
  | 0, _ => malformed
  | fuel + 1, '[' :: rest => do scanItems fuel [] (← skipLines false rest)
  | fuel + 1, '\x7b' :: rest =>
    match skipGap rest with
    | '\x7d' :: rest => .ok (.table [], rest)
    | rest => scanMembers fuel [] [] rest
  | _ + 1, cs => scanScalar cs

/-- The items of an array behind those that are done, which are in reverse. -/
def scanItems : (fuel : Nat) → List Literal → List Char → Except Flaw (Literal × List Char)
  | 0, _, _ => malformed
  | _ + 1, done, ']' :: rest => .ok (.list done.reverse, rest)
  | fuel + 1, done, cs => do
    let (item, rest) ← scanValue fuel cs
    match ← skipLines false rest with
    | ']' :: rest => return (.list (item :: done).reverse, rest)
    | ',' :: rest => scanItems fuel (item :: done) (← skipLines false rest)
    | _ => malformed

/-- The members of an inline table behind those that are done. -/
def scanMembers : (fuel : Nat) → (complete : List Key) → Entries → List Char →
    Except Flaw (Literal × List Char)
  | 0, _, _, _ => malformed
  | fuel + 1, complete, done, cs => do
    let (key, value, rest) ← scanPair fuel cs
    if covers complete key then malformed
    else
      let done ← addAt false key value done
      match skipGap rest with
      | '\x7d' :: rest => return (.table done, rest)
      | ',' :: rest =>
        scanMembers fuel (if isComplete value then key :: complete else complete) done (skipGap rest)
      | _ => malformed

def scanPair : (fuel : Nat) → List Char → Except Flaw (Key × Literal × List Char)
  | 0, _ => malformed
  | fuel + 1, cs => do
    let (key, rest) ← scanKey (cs.length + 1) cs
    match rest with
    | '=' :: rest => do
      let (value, rest) ← scanValue fuel (skipGap rest)
      return (key, value, rest)
    | _ => malformed

end

end ArtifactIdentity.Toml
