import JsonShape.Identifier
import JsonShape.Shape.Tree
import JsonShape.Value

/-!
# Dumped models

A tree as a JSON value: each object with its properties and the objects it refers to. A property refers
to an object by its name.
-/

namespace JsonShape.Model

/-- The description of a property's shape. -/
def ofShape : Shape → Value
  | .prim p => .record [("kind", .str p.name)]
  | .array e => .record [("kind", .str "array"), ("element", ofShape e)]
  | .object o => .record [("kind", .str "object"), ("name", .str o.name)]

/-- The description of a property. -/
def ofProperty (property : String × Shape) : Value :=
  .record [("key", .str property.1), ("identifier", .str (deriveIdentifier property.1)),
    ("type", ofShape property.2)]

/-- The description of an object and of those it refers to. -/
def ofObject (o : ObjectShape) : Value :=
  .record [("name", .str o.name), ("depth", .int o.depth),
    ("properties", .arr (o.properties.map ofProperty)),
    ("subtypes", .arr (o.subtypes.attach.map fun ⟨u, _⟩ => ofObject u))]
  termination_by o.objects
  decreasing_by exact ObjectShape.objects_lt_of_mem_subtypes ‹_›

/-- The description of a tree. -/
def ofTree (t : Tree) : Value :=
  .record [("namespace", .str t.scope), ("root", ofObject t.root)]

end JsonShape.Model
