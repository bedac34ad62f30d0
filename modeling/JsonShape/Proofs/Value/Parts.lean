import JsonShape.Value

/-!
# The parts of a value

What is inside an array or an object, at any depth, as one list: the list that statements about every
value of a document range over.
-/

namespace JsonShape.Value

mutual
/-- The values inside a value, at any depth, in order; a scalar has none. -/
def inside : Value → List Value
  | .arr items => partsOfItems items
  | .obj members => partsOfMembers members
  | .null | .bool _ | .int _ | .float _ | .str _ | .foreign _ => []
/-- The items of an array, each with what is inside it. -/
def partsOfItems : List Value → List Value
  | [] => []
  | v :: rest => v :: (v.inside ++ partsOfItems rest)
/-- The values of an object, each with what is inside it. -/
def partsOfMembers : List (Key × Value) → List Value
  | [] => []
  | (_, v) :: rest => v :: (v.inside ++ partsOfMembers rest)
end

/-- A value and the values inside it. -/
def parts (v : Value) : List Value := v :: v.inside

theorem partsOfItems_cons (v : Value) (rest : List Value) :
    partsOfItems (v :: rest) = v.parts ++ partsOfItems rest := by
  simp [partsOfItems, parts]

theorem partsOfMembers_cons (m : Key × Value) (rest : List (Key × Value)) :
    partsOfMembers (m :: rest) = m.2.parts ++ partsOfMembers rest := by
  simp [partsOfMembers, parts]

theorem mem_partsOfItems {items : List Value} {w : Value} :
    w ∈ partsOfItems items ↔ ∃ v ∈ items, w ∈ v.parts := by
  induction items with
  | nil => simp [partsOfItems]
  | cons v rest ih => simp [partsOfItems_cons, ih]

theorem mem_partsOfMembers {members : List (Key × Value)} {w : Value} :
    w ∈ partsOfMembers members ↔ ∃ m ∈ members, w ∈ m.2.parts := by
  induction members with
  | nil => simp [partsOfMembers]
  | cons m rest ih => simp [partsOfMembers_cons, ih]

/-- The value is an array. -/
def isArray : Value → Bool
  | .arr _ => true
  | .null | .bool _ | .int _ | .float _ | .str _ | .obj _ | .foreign _ => false

/-- The value is an object with a member. -/
def isFilledObject : Value → Bool
  | .obj members => !members.isEmpty
  | .null | .bool _ | .int _ | .float _ | .str _ | .arr _ | .foreign _ => false

end JsonShape.Value
