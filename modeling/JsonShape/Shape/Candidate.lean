import JsonShape.Fault
import JsonShape.Shape

/-!
# Candidates for shapes

What a caller hands in as a shape: a shape, or something else, inside any number of arrays.
-/

namespace JsonShape

/-- A shape or a value that is none, possibly inside arrays. -/
inductive Candidate
  | shape (t : Shape)
  | array (element : Candidate)
  | other (kind : Kind)
  deriving Inhabited

/-- The shape that a candidate is. -/
def Candidate.toShape : Candidate → Except Fault Shape
  | .shape t => .ok t
  | .array e => e.toShape.map .array
  | .other kind => .error (.unsupportedShape kind)

end JsonShape
