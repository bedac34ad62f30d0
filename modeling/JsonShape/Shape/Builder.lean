import JsonShape.Identifier
import JsonShape.Shape.Scope
import JsonShape.Value

/-!
# Shapes of values

The shape of a decoded value. An object's values are classified and bound in a scope of its own; an
array's element shape joins the distinct shapes of its items; null, booleans, the empty object and
the elements of an empty array tell nothing and accept anything.
-/

namespace JsonShape

/-- The narrowest primitive of an integer: 32 bits, 64 bits, or a float. -/
def classifyInt (n : Int) : Primitive :=
  if -2147483648 ≤ n ∧ n ≤ 2147483647 then .integer
  else if -9223372036854775808 ≤ n ∧ n ≤ 9223372036854775807 then .longInteger
  else .float

/-- The shape that joins the shapes of an array's items. -/
def elementShape (items : List Shape) : Pass Shape :=
  match distinct items with
  | [] => return .anything
  | [t] => return t
  | ts =>
    match allObjects? ts with
    | some os => do
      let merged ← unifyObjects os
      return if merged.isEmpty then .anything else .object merged
    | none => return .prim (← Pass.ofExcept (scalarMinimum ts))

/-- A checkpoint, and then the object shape that a scope becomes when its members are bound. -/
def buildScope (name : String) (depth : Nat) (members : Scope → Pass Scope) : Pass ObjectShape := do
  Pass.check
  let scope ← members { name, depth }
  Pass.countObject
  return scope.shape

mutual
/-- The shape of a value that is found in an object at a depth. An object gets the given name. -/
def classify : Value → String → Nat → Pass Shape
  | .null, _, _ => return .anything
  | .bool _, _, _ => return .anything
  | .int n, _, _ => return .prim (classifyInt n)
  | .float _, _, _ => return .prim .float
  | .str _, _, _ => return .prim .string
  | .arr items, name, depth => do
    Pass.check
    let shapes ← classifyItems items (elementName name) depth
    return .array (← elementShape shapes)
  | .obj members, name, depth =>
    if members.isEmpty then return .anything
    else return .object (← buildScope name (depth + 1) (bindMembers members))
  | .foreign kind, _, _ => Pass.fail (.unsupportedValue kind.kind)
termination_by structural v => v
/-- The shapes of the items of an array. -/
def classifyItems : List Value → String → Nat → Pass (List Shape)
  | [], _, _ => return []
  | v :: rest, name, depth => return (← classify v name depth) :: (← classifyItems rest name depth)
termination_by structural items => items
/-- Binds the members of an object in a scope. -/
def bindMembers : List (Key × Value) → Scope → Pass Scope
  | [], scope => return scope
  | (key, v) :: rest, scope =>
    match key with
    | .other kind => Pass.fail (.unsupportedKey kind)
    | .text key => do
      let t ← classify v (deriveIdentifier key) scope.depth
      bindMembers rest (← scope.bind key t)
termination_by structural members => members
end

/-- The shape of an array that is held under a name in an object at a depth. -/
def buildArray (items : List Value) (name : String) (depth : Nat) : Pass Shape :=
  classify (.arr items) name depth

/-- The shape of an object at a depth. -/
def buildObject (members : List (Key × Value)) (name : String) (depth : Nat) : Pass ObjectShape :=
  buildScope name depth (bindMembers members)

end JsonShape
