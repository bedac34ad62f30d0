/-!
# Shapes

The type of a JSON value as inference sees it: a primitive, an array of one element shape, or an object
with named properties. An object shape has a name, and its depth below the document's root; both serve
rendering and take no part in comparing shapes.
-/

namespace JsonShape

/-- The scalar shapes. `anything` accepts every value. -/
inductive Primitive
  | integer | longInteger | float | string | anything
  deriving DecidableEq, Repr

/-- The name of a primitive in a dumped model. -/
def Primitive.name : Primitive → String
  | .integer => "integer"
  | .longInteger => "long"
  | .float => "float"
  | .string => "string"
  | .anything => "opaque"

/-- The primitives that numbers have. -/
def Primitive.isNumeric : Primitive → Bool
  | .integer | .longInteger | .float => true
  | .string | .anything => false

mutual
/-- The shape of a JSON value. -/
inductive Shape
  | prim (p : Primitive)
  | array (element : Shape)
  | object (o : ObjectShape)
/-- The shape of an object: its properties in order, by their JSON keys. -/
structure ObjectShape where
  name : String
  depth : Nat
  properties : List (String × Shape)
end

instance : Inhabited Shape := ⟨.prim .anything⟩

instance : Inhabited ObjectShape := ⟨⟨"", 0, []⟩⟩

/-- The shape that accepts every value. -/
abbrev Shape.anything : Shape := .prim .anything

namespace ObjectShape

/-- An object shape without properties. -/
def isEmpty (o : ObjectShape) : Bool := o.properties.isEmpty

/-- The keys in order. -/
def keys (o : ObjectShape) : List String := o.properties.map (·.1)

/-- The shape of the first property with a key. -/
def get? (o : ObjectShape) (key : String) : Option Shape := o.properties.lookup key

end ObjectShape

namespace Shape

/-! ### Arrays around a shape -/

/-- How many arrays a shape is wrapped in. -/
def arrayDepth : Shape → Nat
  | .array e => e.arrayDepth + 1
  | .prim _ | .object _ => 0

/-- The shape inside all arrays. -/
def innermost : Shape → Shape
  | .array e => e.innermost
  | .prim p => .prim p
  | .object o => .object o

/-- A shape wrapped in a number of arrays. -/
def wrap (t : Shape) : Nat → Shape
  | 0 => t
  | n + 1 => .array (t.wrap n)

/-- The object shape that a shape is, if it is one. -/
def toObject? : Shape → Option ObjectShape
  | .object o => some o
  | .prim _ | .array _ => none

/-- The object shape inside all arrays, if there is one. -/
def innerObject? (t : Shape) : Option ObjectShape := t.innermost.toObject?

/-- A shape whose innermost object has the given name, with the object swapped for a replacement; any
other shape stays. -/
def replaceObject (t : Shape) (name : String) (replacement : Shape) : Shape :=
  match t.innerObject? with
  | some o => if o.name = name then replacement.wrap t.arrayDepth else t
  | none => t

end Shape

/-! ### The objects that an object refers to -/

/-- The first object of each name. -/
def firstOfEachName : List ObjectShape → List ObjectShape
  | [] => []
  | o :: rest => o :: (firstOfEachName rest).filter (·.name ≠ o.name)

namespace ObjectShape

/-- The object shapes that the properties refer to, one for each name. -/
def subtypes (o : ObjectShape) : List ObjectShape :=
  firstOfEachName (o.properties.filterMap (·.2.innerObject?))

/-- The first key whose shape refers to an object of the given name. -/
def referencingKey? (o : ObjectShape) (name : String) : Option String :=
  (o.properties.find? fun (_, t) => t.innerObject?.any (·.name = name)).map (·.1)

end ObjectShape

/-! ### Structural equality -/

mutual
/-- Structural equality of shapes: names, depths and the order of properties play no part. -/
def Shape.same : Shape → Shape → Bool
  | .prim p, .prim q => p = q
  | .array e, .array f => e.same f
  | .object o, .object u => o.same u
  | _, _ => false
termination_by structural t => t
/-- Structural equality of object shapes: as many properties, and each key's shapes are equal. -/
def ObjectShape.same : ObjectShape → ObjectShape → Bool
  | ⟨_, _, properties⟩, u =>
    properties.length == u.properties.length && propertiesSame properties u
termination_by structural o => o
/-- Whether an object has each of the given properties, with an equal shape. -/
def propertiesSame : List (String × Shape) → ObjectShape → Bool
  | [], _ => true
  | (key, t) :: rest, u =>
    (match u.get? key with
      | some v => t.same v
      | none => false) && propertiesSame rest u
termination_by structural properties => properties
end

/-- The first shape of each class of structurally equal ones. -/
def distinct : List Shape → List Shape
  | [] => []
  | t :: rest => t :: (distinct rest).filter (!t.same ·)

end JsonShape
