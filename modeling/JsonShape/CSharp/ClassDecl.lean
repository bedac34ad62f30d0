import JsonShape.CSharp.TypeRef
import JsonShape.Shape.Tree

/-!
# Class declarations

The classes that stand for a tree of shapes, with all names chosen: one class for each object shape, and
inside it the classes of the shapes it refers to.
-/

namespace JsonShape.CSharp

/-- A member of a class: the property of a JSON key. -/
structure Member where
  key : String
  type : TypeRef
  name : String
  deriving DecidableEq, Repr

/-- A class, with its members and the classes inside it. -/
structure ClassDecl where
  name : String
  summary : String
  depth : Nat
  members : List Member
  nested : List ClassDecl

/-- The summary of a nested class by the first member that refers to it. -/
def nestedSummary (o : ObjectShape) (members : List (String × String)) (u : ObjectShape) : String :=
  let key := (o.referencingKey? u.name).getD ""
  let ref := (members.lookup key).getD ""
  let article := if (o.get? key).any (0 < ·.arrayDepth) then "an element of" else "a"
  s!"Represents {article} <see cref=\"{ref}\"/>."

/-- The class of an object shape under a name, inside the enclosing classes. The keys of the shape are distinct,
as those of all inferred shapes are: of a repeated key the first name would count for all its members. -/
def declare (o : ObjectShape) (name summary : String) (enclosing : List String) : ClassDecl :=
  let members := memberNames o name
  let nested := nestedNames o (enclosing ++ name :: members.map (·.2))
  { name
    summary
    depth := o.depth
    members := o.properties.map fun (key, t) =>
      { key, type := .ofShape nested t, name := (members.lookup key).getD "" }
    nested := o.subtypes.attach.map fun ⟨u, _⟩ =>
      declare u ((nested.lookup u.name).getD "") (nestedSummary o members u) (enclosing ++ [name]) }
  termination_by o.objects
  decreasing_by exact ObjectShape.objects_lt_of_mem_subtypes ‹_›

/-- The class of a tree's root. -/
def ofTree (t : Tree) : ClassDecl :=
  declare t.root t.root.name s!"Represents {t.root.name}." []

end JsonShape.CSharp
