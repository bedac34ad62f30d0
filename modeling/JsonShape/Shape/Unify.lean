import JsonShape.Pass
import JsonShape.Shape

/-!
# Unification of shapes

The narrowest shape that accepts whatever one of several shapes accepts. Numbers widen from integer over
long integer to float; a string unifies with strings only; any other mixture of scalars accepts anything,
and so do shapes of different array depth. Objects keep the properties that all of them have, each
property unified, in the order of the first object, whose name and depth the result takes.
-/

namespace JsonShape

/-- The place of a numeric primitive in the order of widening. -/
def Primitive.rank : Primitive → Nat
  | .integer => 0
  | .longInteger => 1
  | .float => 2
  | .string | .anything => 3

/-- The narrowest primitive that accepts what two primitives accept. -/
def Primitive.join (p q : Primitive) : Primitive :=
  if p = q then p
  else if p.isNumeric && q.isNumeric then if p.rank ≤ q.rank then q else p
  else .anything

/-- The primitive of a shape; a shape that is not a primitive counts as one that accepts anything. -/
def Shape.toPrimitive : Shape → Primitive
  | .prim p => p
  | .array _ | .object _ => .anything

/-- The narrowest primitive that accepts every one of some shapes. -/
def scalarMinimum : List Shape → Except Fault Primitive
  | [] => .error .noShapes
  | t :: rest => .ok (rest.foldl (fun p u => p.join u.toPrimitive) t.toPrimitive)

/-- The object shapes that all of some shapes are. -/
def allObjects? (ts : List Shape) : Option (List ObjectShape) := ts.mapM Shape.toObject?

/-- A checkpoint, and then the unification of a shape and others: `inner` unifies what is inside their
arrays, if these are equally many. -/
def unifyAround (t : Shape) (others : List Shape) (inner : Pass Shape) : Pass Shape := do
  Pass.check
  if others.all (·.arrayDepth = t.arrayDepth) then return (← inner).wrap t.arrayDepth
  else return .anything

mutual
/-- Unifies what is inside the arrays of a shape with shapes that are no arrays. -/
def unifyInner : Shape → List Shape → Pass Shape
  | .array e, others => unifyInner e others
  | .prim p, others => return .prim (← Pass.ofExcept (scalarMinimum (.prim p :: others)))
  | .object o, others =>
    match allObjects? others with
    | some us => do
      let merged ← unifyWith o us
      return if merged.isEmpty then .anything else .object merged
    | none => return .prim (← Pass.ofExcept (scalarMinimum (.object o :: others)))
termination_by structural t => t
/-- Unifies an object with others. An object alone is its own unification. -/
def unifyWith : ObjectShape → List ObjectShape → Pass ObjectShape
  | ⟨name, depth, properties⟩, others => do
    Pass.check
    if others.isEmpty then return ⟨name, depth, properties⟩
    return ⟨name, depth, ← unifyProperties properties others⟩
termination_by structural o => o
/-- The properties that other objects have too. A property whose shapes are all equal stays as it is. -/
def unifyProperties : List (String × Shape) → List ObjectShape → Pass (List (String × Shape))
  | [], _ => return []
  | (key, t) :: rest, others =>
    match others.mapM (·.get? key) with
    | none => unifyProperties rest others
    | some us => do
      let u ←
        if us.all (·.same t) then pure t
        else unifyAround t us (unifyInner t (us.map Shape.innermost))
      return (key, u) :: (← unifyProperties rest others)
termination_by structural properties => properties
end

/-- The narrowest shape that accepts every one of the shapes seen for one property. -/
def unifyShapes : List Shape → Pass Shape
  | [] => do
    Pass.check
    return .anything
  | t :: others => unifyAround t others (unifyInner t (others.map Shape.innermost))

/-- The narrowest object shape that accepts every one of some object shapes. -/
def unifyObjects : List ObjectShape → Pass ObjectShape
  | [] => Pass.fail .noObjects
  | o :: others => unifyWith o others

end JsonShape
