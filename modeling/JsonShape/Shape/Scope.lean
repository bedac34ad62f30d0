import JsonShape.Shape.Registry

/-!
# Scopes

An object shape in the making: the properties bound so far and the registry of the object shapes they
refer to. Binding a property registers the object inside it; what the registry makes of it replaces
every object of that name in the scope.
-/

namespace JsonShape

/-- An object shape in the making. -/
structure Scope where
  name : String
  depth : Nat
  properties : List (String × Shape) := []
  registry : Registry := {}

namespace Scope

/-- Properties with the shape of a key set: a new key goes last, a known key keeps its place. -/
def setProperty (properties : List (String × Shape)) (key : String) (t : Shape) :
    List (String × Shape) :=
  match properties with
  | [] => [(key, t)]
  | (k, u) :: rest => if k = key then (k, t) :: rest else (k, u) :: setProperty rest key t

/-- Binds a key to a shape. -/
def bind (s : Scope) (key : String) (t : Shape) : Pass Scope :=
  match t.innerObject? with
  | none => return { s with properties := setProperty s.properties key t }
  | some o => do
    let (registered, registry) ← s.registry.register o
    let replacement : Shape := registered.elim .anything .object
    let earlier := s.properties.map fun (k, u) => (k, u.replaceObject o.name replacement)
    return { s with
      properties := setProperty earlier key (t.replaceObject o.name replacement)
      registry }

/-- The object shape that has been made. -/
def shape (s : Scope) : ObjectShape := ⟨s.name, s.depth, s.properties⟩

end Scope
end JsonShape
