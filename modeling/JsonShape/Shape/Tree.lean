import JsonShape.Shape

/-!
# Shape trees

The result of inference: a root object shape and the namespace it belongs to. The objects of a tree are
listed in pre-order, an object before those it refers to: `ObjectShape.preorder` by recursion,
`ObjectShape.walk` with an explicit stack.
-/

namespace JsonShape

mutual
/-- The number of object shapes in a shape, at any depth. -/
def Shape.objects : Shape → Nat
  | .prim _ => 0
  | .array e => e.objects
  | .object o => o.objects
/-- The number of object shapes in an object shape, itself included. -/
def ObjectShape.objects : ObjectShape → Nat
  | ⟨_, _, properties⟩ => objectsOfProperties properties + 1
/-- The number of object shapes in a list of properties. -/
def objectsOfProperties : List (String × Shape) → Nat
  | [] => 0
  | (_, t) :: rest => t.objects + objectsOfProperties rest
end

theorem Shape.objects_innermost : ∀ t : Shape, t.innermost.objects = t.objects
  | .array e => by simpa [innermost, objects] using e.objects_innermost
  | .prim _ | .object _ => rfl

theorem Shape.objects_of_innerObject? {t : Shape} {o : ObjectShape} (h : t.innerObject? = some o) :
    o.objects = t.objects := by
  rw [← t.objects_innermost]
  unfold innerObject? at h
  cases hi : t.innermost with
  | object u => simp [hi, toObject?] at h; simp [Shape.objects, h]
  | prim p => simp [hi, toObject?] at h
  | array e => simp [hi, toObject?] at h

/-- The number of object shapes in a list of object shapes. -/
def objectsOfList : List ObjectShape → Nat
  | [] => 0
  | o :: rest => o.objects + objectsOfList rest

theorem objectsOfList_append (os us : List ObjectShape) :
    objectsOfList (os ++ us) = objectsOfList os + objectsOfList us := by
  induction os with
  | nil => simp [objectsOfList]
  | cons o rest ih => simp [objectsOfList, ih]; omega

theorem objectsOfList_filter_le (keep : ObjectShape → Bool) (os : List ObjectShape) :
    objectsOfList (os.filter keep) ≤ objectsOfList os := by
  induction os with
  | nil => simp
  | cons o rest ih => by_cases h : keep o <;> simp [objectsOfList, h] <;> omega

theorem objectsOfList_firstOfEachName_le (os : List ObjectShape) :
    objectsOfList (firstOfEachName os) ≤ objectsOfList os := by
  induction os with
  | nil => simp [firstOfEachName]
  | cons o rest ih =>
    have := objectsOfList_filter_le (fun u => u.name ≠ o.name) (firstOfEachName rest)
    simp [firstOfEachName, objectsOfList] at this ⊢; omega

theorem objectsOfList_innerObjects (properties : List (String × Shape)) :
    objectsOfList (properties.filterMap (·.2.innerObject?)) ≤ objectsOfProperties properties := by
  induction properties with
  | nil => simp [objectsOfList]
  | cons p rest ih =>
    cases h : p.2.innerObject? with
    | none => simp [h, objectsOfProperties]; omega
    | some o => simp [h, objectsOfList, objectsOfProperties, Shape.objects_of_innerObject? h]; omega

/-- What an object refers to holds fewer objects than the object. -/
theorem ObjectShape.objectsOfList_subtypes_lt (o : ObjectShape) :
    objectsOfList o.subtypes < o.objects := by
  obtain ⟨name, depth, properties⟩ := o
  have h₁ := objectsOfList_firstOfEachName_le (properties.filterMap (·.2.innerObject?))
  have h₂ := objectsOfList_innerObjects properties
  simp only [subtypes, ObjectShape.objects]
  omega

theorem objects_le_objectsOfList {u : ObjectShape} {os : List ObjectShape} (h : u ∈ os) :
    u.objects ≤ objectsOfList os := by
  induction os with
  | nil => simp at h
  | cons o rest ih =>
    rcases List.mem_cons.1 h with rfl | h
    · simp [objectsOfList]
    · have := ih h; simp [objectsOfList]; omega

theorem ObjectShape.objects_lt_of_mem_subtypes {o u : ObjectShape} (h : u ∈ o.subtypes) :
    u.objects < o.objects :=
  Nat.lt_of_le_of_lt (objects_le_objectsOfList h) o.objectsOfList_subtypes_lt

namespace ObjectShape

/-- An object followed by the pre-orders of the objects it refers to. -/
def preorder (o : ObjectShape) : List ObjectShape :=
  o :: o.subtypes.attach.flatMap fun ⟨u, _⟩ => u.preorder
  termination_by o.objects
  decreasing_by exact objects_lt_of_mem_subtypes ‹_›

/-- Takes the top object off a stack, lists it and puts the objects it refers to on the stack, the first
on top, until the stack is empty. -/
def walk : List ObjectShape → List ObjectShape
  | [] => []
  | o :: stack => o :: walk (o.subtypes ++ stack)
  termination_by stack => objectsOfList stack
  decreasing_by
    have := o.objectsOfList_subtypes_lt
    simp [objectsOfList, objectsOfList_append]; omega

end ObjectShape

/-- The finished result of an inference pass: the root's shape and the namespace it belongs to. -/
structure Tree where
  root : ObjectShape
  scope : String := ""

namespace Tree

/-- The root's name after the namespace, if there is one. -/
def qualifiedName (t : Tree) : String :=
  if t.scope.isEmpty then t.root.name else t.scope ++ "." ++ t.root.name

/-- The objects of the tree in pre-order. -/
def objects (t : Tree) : List ObjectShape := ObjectShape.walk [t.root]

/-- The number of objects of the tree. -/
def objectCount (t : Tree) : Nat := t.objects.length

end Tree
end JsonShape
