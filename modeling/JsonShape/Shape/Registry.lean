import JsonShape.Shape.Unify

/-!
# Registries of subtypes

The object shapes that belong to one scope, each under its own name. A shape registered under a taken name
is unified with the one there; when nothing is left of the two, the name is retired for good.
-/

namespace JsonShape

/-- The registered shapes in order of registration, and the retired names. -/
structure Registry where
  types : List ObjectShape := []
  retired : List String := []

namespace Registry

/-- The registered names in order. -/
def names (r : Registry) : List String := r.types.map (·.name)

/-- The shape registered under a name. -/
def get? (r : Registry) (name : String) : Option ObjectShape :=
  r.types.find? (·.name = name)

/-- The first registered shape that is structurally equal to a given one. -/
def findEqual? (r : Registry) (o : ObjectShape) : Option ObjectShape :=
  r.types.find? (·.same o)

/-- The registry with a new shape behind the others. -/
def add (r : Registry) (o : ObjectShape) : Registry := { r with types := r.types ++ [o] }

/-- The registry with a shape in the place of the one of its name. -/
def replace (r : Registry) (o : ObjectShape) : Registry :=
  { r with types := r.types.map fun u => if u.name = o.name then o else u }

/-- The registry without a name, which is never used again. -/
def retire (r : Registry) (name : String) : Registry :=
  { types := r.types.filter (·.name ≠ name), retired := name :: r.retired }

/-- Registers a shape. Gives the shape that is now registered under its name, unless the name is
retired, and the registry after it. -/
def register (r : Registry) (o : ObjectShape) : Pass (Option ObjectShape × Registry) := do
  Pass.check
  if r.retired.contains o.name then return (none, r)
  match r.get? o.name with
  | none => return (some o, r.add o)
  | some existing =>
    if existing.same o then return (some existing, r)
    let merged ← unifyObjects [existing, o]
    if merged.isEmpty then return (none, r.retire o.name)
    return (some merged, r.replace merged)

/-- A call to register a shape, as its caller sees it: the answer, and the registry after the call. A
call that ends in a fault leaves the registry as it was. -/
def call (r : Registry) (o : ObjectShape) (signal : Signal) :
    Except Fault (Option ObjectShape) × Registry :=
  match ((r.register o).run signal {}).1 with
  | .ok (answer, after) => (.ok answer, after)
  | .error e => (.error e, r)

end Registry
end JsonShape
