import JsonShape.Decimal

/-!
# Decoded documents

A JSON document after decoding: the seven kinds of JSON value, and the values and object keys that no
decoder makes but a caller may hand in. An object is a list of members in order; one that a decoder
makes has each key once.
-/

namespace JsonShape

/-- The kinds of value that a caller may meet, those no JSON decoder makes included. -/
inductive Kind
  | object | list | string | integer | float | boolean | null
  | set | bytes | tuple | plainObject
  deriving DecidableEq, Repr

/-- A kind as messages name it. -/
def Kind.name : Kind → String
  | .object => "dict"
  | .list => "list"
  | .string => "str"
  | .integer => "int"
  | .float => "float"
  | .boolean => "bool"
  | .null => "NoneType"
  | .set => "set"
  | .bytes => "bytes"
  | .tuple => "tuple"
  | .plainObject => "object"

/-- The kinds of value that no JSON decoder makes. -/
inductive Foreign
  | set | bytes | tuple | plainObject
  deriving DecidableEq, Repr

/-- A foreign kind among all kinds. -/
def Foreign.kind : Foreign → Kind
  | .set => .set
  | .bytes => .bytes
  | .tuple => .tuple
  | .plainObject => .plainObject

/-- An object's key: a text, or in a value handed in something else, of which only the kind matters. -/
inductive Key
  | text (s : String)
  | other (kind : Kind)
  deriving DecidableEq, Repr, Inhabited

/-- A decoded JSON value. -/
inductive Value
  | null
  | bool (b : Bool)
  | int (n : Int)
  | float (x : Decimal)
  | str (s : String)
  | arr (items : List Value)
  | obj (members : List (Key × Value))
  | foreign (kind : Foreign)
  deriving Inhabited

namespace Value

/-- The kind of a value. -/
def kind : Value → Kind
  | .null => .null
  | .bool _ => .boolean
  | .int _ => .integer
  | .float _ => .float
  | .str _ => .string
  | .arr _ => .list
  | .obj _ => .object
  | .foreign k => k.kind

/-- Members with the value of a text key set: a new key goes last, a known key keeps its place. -/
def setMember (members : List (Key × Value)) (key : String) (value : Value) : List (Key × Value) :=
  match members with
  | [] => [(.text key, value)]
  | (k, v) :: rest =>
    if k = .text key then (k, value) :: rest else (k, v) :: setMember rest key value

/-- The object with the given members: a repeated text key keeps its first place and its last value. -/
def ofMembers (members : List (Key × Value)) : Value :=
  .obj (members.foldl (fun ms (k, v) =>
    match k with
    | .text key => setMember ms key v
    | .other _ => ms ++ [(k, v)]) [])

/-- The object with the given text keys, in order. -/
def record (members : List (String × Value)) : Value :=
  .obj (members.map fun (k, v) => (.text k, v))

/-- The value under a text key of an object's members. -/
def member? (members : List (Key × Value)) (key : String) : Option Value :=
  members.lookup (.text key)

end Value
end JsonShape
