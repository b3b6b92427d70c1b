import ArtifactIdentity.Literal.Basic

/-!
# JSON values

The values of a JSON document. Integers that fit 64 bits, signed or unsigned, are kept exactly; every
other number is a float. The members of an object keep their order, and each name occurs once.
-/

namespace ArtifactIdentity

inductive Json where
  | null
  | bool (value : Bool)
  | integer (value : Int)
  | float (value : Binary64)
  | string (value : String)
  | array (items : List Json)
  | object (members : List (String × Json))

namespace Json

mutual

def toLiteral : Json → Literal
  | .null => .absent
  | .bool b => .flag b
  | .integer n => .integer n
  | .float x => .float x
  | .string s => .text s
  | .array items => .list (literalsOf items)
  | .object members => .table (entriesOf members)

def literalsOf : List Json → List Literal
  | [] => []
  | item :: rest => item.toLiteral :: literalsOf rest

def entriesOf : List (String × Json) → List (String × Literal)
  | [] => []
  | (name, value) :: rest => (name, value.toLiteral) :: entriesOf rest

end

end Json

end ArtifactIdentity
