import JsonShape.CSharp.Names

/-!
# Types of members

The C# type of a shape: a primitive or a class, with as many brackets behind it as there are arrays
around it.
-/

namespace JsonShape.CSharp

/-- The C# name of a primitive. -/
def primitiveName : Primitive → String
  | .integer => "int"
  | .longInteger => "long"
  | .float => "double"
  | .string => "string"
  | .anything => "object"

/-- The type inside all arrays. -/
inductive BaseType
  | primitive (p : Primitive)
  | named (className : String)
  deriving DecidableEq, Repr

/-- A type: a base and the number of arrays around it. -/
structure TypeRef where
  base : BaseType
  rank : Nat
  deriving DecidableEq, Repr

namespace TypeRef

/-- The class name for a shape's name; one that has none, or an empty one, goes by its natural name. -/
def classNameFor (classNames : List (String × String)) (name : String) : String :=
  match classNames.lookup name with
  | some allocated => if allocated.isEmpty then nestedName name else allocated
  | none => nestedName name

/-- The type of a shape, given the class names for the shapes' names. -/
def ofShape (classNames : List (String × String)) : Shape → TypeRef
  | .prim p => ⟨.primitive p, 0⟩
  | .object o => ⟨.named (classNameFor classNames o.name), 0⟩
  | .array e =>
    let t := ofShape classNames e
    { t with rank := t.rank + 1 }

/-- Whether a type is a number, or arrays of numbers. -/
def isNumeric (t : TypeRef) : Bool :=
  match t.base with
  | .primitive p => p.isNumeric
  | .named _ => false

/-- Whether the values of a type are references: all but numbers outside arrays. -/
def isReference (t : TypeRef) : Bool := t.rank ≠ 0 || !t.isNumeric

/-- A base type as C# writes it. -/
def baseText : BaseType → String
  | .primitive p => primitiveName p
  | .named className => className

/-- A type as C# writes it; a reference type may be marked as nullable. -/
def text (nullable : Bool) (t : TypeRef) : String :=
  baseText t.base ++ String.join (List.replicate t.rank "[]") ++
    if nullable && t.isReference then "?" else ""

end TypeRef
end JsonShape.CSharp
