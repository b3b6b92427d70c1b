import ArtifactIdentity.Toml.Value

/-!
# TOML documents

A document is a row of statements, one on a line: a pair of a key and a value, the header of a table, or
the header of a table that is added to an array. A header moves to its table, and the keys of the pairs
below it start from there. A table is opened by one header at most, a complete value is never reached
into, and no value is set twice.
-/

namespace ArtifactIdentity.Toml

/-- What the statements so far amount to: the table of the document; the keys of the tables that no header
may open again, and of those that none may open once the present section is over; the keys of complete
values; and the table of the present section. -/
structure Document where
  root : Entries := []
  opened : List Key := []
  dotted : List Key := []
  complete : List Key := []
  header : Key := []

namespace Document

def endSection (doc : Document) : Document :=
  { doc with opened := doc.dotted ++ doc.opened, dotted := [] }

def openTable (doc : Document) (key : Key) : Except Flaw Document :=
  if doc.opened.contains key || covers doc.complete key then malformed
  else
    (changeTable true .ok key doc.root).map fun root =>
      { doc with root := root, opened := key :: doc.opened, header := key }

/-- An array of tables with one more table, which is empty. -/
def addTable (name : String) (entries : Entries) : Except Flaw Entries :=
  match entries.lookup name with
  | none => .ok (Table.set name (.list [.table []]) entries)
  | some (.list items) => .ok (Table.set name (.list (items ++ [.table []])) entries)
  | some _ => malformed

/-- The header of a table that is added to an array. What was opened inside the table before it may be
opened again. -/
def openItem (doc : Document) (key : Key) : Except Flaw Document :=
  if covers doc.complete key then malformed
  else
    match key.getLast? with
    | none => malformed
    | some name =>
      (changeTable true (addTable name) key.dropLast doc.root).map fun root =>
        { doc with
          root := root
          opened := key :: doc.opened.filter fun k => !key.isPrefixOf k
          complete := doc.complete.filter fun k => !key.isPrefixOf k
          header := key }

/-- The keys of the tables that a dotted key goes through, from the table of the section on. -/
def tablesThrough (header key : Key) : List Key :=
  (List.range (key.length - 1)).map fun n => header ++ key.take (n + 1)

def setPair (doc : Document) (key : Key) (value : Literal) : Except Flaw Document :=
  let through := tablesThrough doc.header key
  if through.any doc.opened.contains || covers doc.complete (doc.header ++ key.dropLast) then malformed
  else
    (addAt true (doc.header ++ key) value doc.root).map fun root =>
      { doc with
        root := root
        dotted := through ++ doc.dotted
        complete :=
          if isComplete value then (doc.header ++ key) :: doc.complete else doc.complete }

/-- The statement in front of a text, if there is one before the end of the line. -/
def scanStatement (doc : Document) (cs : List Char) : Except Flaw (Document × List Char) :=
  match cs with
  | '[' :: '[' :: rest => do
    let (key, rest) ← scanKey (cs.length + 1) (skipGap rest)
    let doc ← doc.endSection.openItem key
    match rest with
    | ']' :: ']' :: rest => return (doc, rest)
    | _ => malformed
  | '[' :: rest => do
    let (key, rest) ← scanKey (cs.length + 1) (skipGap rest)
    let doc ← doc.endSection.openTable key
    match rest with
    | ']' :: rest => return (doc, rest)
    | _ => malformed
  | '#' :: _ => .ok (doc, cs)
  | _ => do
    let (key, value, rest) ← scanPair (2 * cs.length + 3) cs
    let doc ← doc.setPair key value
    return (doc, rest)

def scanLines : (lines : Nat) → Document → List Char → Except Flaw Document
  | 0, _, _ => malformed
  | lines + 1, doc, cs =>
    match skipGap cs with
    | [] => .ok doc
    | '\n' :: rest => scanLines lines doc rest
    | cs => do
      let (doc, rest) ← doc.scanStatement cs
      match ← skipComment (skipGap rest) with
      | [] => return doc
      | '\n' :: rest => scanLines lines doc rest
      | _ => malformed

end Document

/-- A text in which a line ends with a line feed alone. -/
def withoutReturns : List Char → List Char
  | [] => []
  | '\r' :: '\n' :: rest => '\n' :: withoutReturns rest
  | c :: rest => c :: withoutReturns rest

def ofChars (cs : List Char) : Except Flaw Entries :=
  let cs := withoutReturns cs
  (Document.scanLines (cs.length + 1) {} cs).map Document.root

/-- The table of a document in bytes, which have to be UTF-8. -/
def ofBytes (data : ByteArray) : Except Flaw Entries :=
  match String.fromUTF8? data with
  | some s => ofChars s.toList
  | none => .error .notUnicode

end ArtifactIdentity.Toml
