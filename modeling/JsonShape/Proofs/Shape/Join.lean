import JsonShape.Shape.Unify
import JsonShape.Proofs.Correspondence
import JsonShape.Proofs.Shape.Structure
import JsonShape.Proofs.Yields

/-!
# Joins

What unification yields, without its checkpoints. `ObjectShape.joinWith` is the object that
`unifyObjects` yields from an object and others, `Shape.joinAll` the shape that `unifyShapes` yields. A
property's shapes are joined by `Shape.join`, which keeps the first shape where all are equal to it. The
keys of a join are the keys that all objects have, in the order of the first.
-/

namespace JsonShape

/-! ### Definitions -/

/-- The object, or what accepts anything in the place of an empty one. -/
def ObjectShape.orAnything (o : ObjectShape) : Shape := if o.isEmpty then .anything else .object o

/-- What is inside the arrays of a shape and others, joined to `inner`, in their arrays again; shapes in
unequally many arrays only have in common that anything accepts them. -/
def Shape.joinAround (t : Shape) (others : List Shape) (inner : Shape) : Shape :=
  if others.all (·.arrayDepth = t.arrayDepth) then inner.wrap t.arrayDepth else .anything

mutual
/-- The join of what is inside the arrays of a shape with shapes that are no arrays. -/
def Shape.joinInner : Shape → List Shape → Shape
  | .array e, others => e.joinInner others
  | .prim p, others => .prim (others.foldl (fun q u => q.join u.toPrimitive) p)
  | .object o, others =>
    match allObjects? others with
    | some us => (o.joinWith us).orAnything
    | none => .anything
termination_by structural t => t
/-- The join of an object with others, under the name and at the depth of the first. -/
def ObjectShape.joinWith : ObjectShape → List ObjectShape → ObjectShape
  | ⟨name, depth, properties⟩, others => ⟨name, depth, joinProperties properties others⟩
termination_by structural o => o
/-- The properties whose keys other objects have too, each joined with theirs. -/
def joinProperties : List (String × Shape) → List ObjectShape → List (String × Shape)
  | [], _ => []
  | (key, t) :: rest, others =>
    match others.mapM (·.get? key) with
    | none => joinProperties rest others
    | some us =>
      (key, if us.all (·.same t) then t else t.joinAround us (t.joinInner (us.map Shape.innermost)))
        :: joinProperties rest others
termination_by structural properties => properties
end

/-- The join of a shape with others. -/
def Shape.joinAll (t : Shape) (others : List Shape) : Shape :=
  t.joinAround others (t.joinInner (others.map Shape.innermost))

/-- The join of a property's shape with others: the shape itself if all are equal to it. -/
def Shape.join (t : Shape) (others : List Shape) : Shape :=
  if others.all (·.same t) then t else t.joinAll others

/-- What is joined inside arrays does not depend on the arrays. -/
theorem Shape.joinInner_innermost (t : Shape) (others : List Shape) :
    t.innermost.joinInner others = t.joinInner others := by
  induction t using Shape.induction with
  | prim p => rfl
  | array e ih => exact ih
  | object o => rfl

theorem ObjectShape.orAnything_cases (o : ObjectShape) :
    o.isEmpty = true ∧ o.orAnything = .anything ∨ o.isEmpty = false ∧ o.orAnything = .object o := by
  unfold orAnything
  cases o.isEmpty
  · exact .inr ⟨rfl, rfl⟩
  · exact .inl ⟨rfl, rfl⟩

/-! ### The properties of a join -/

/-- The shapes that objects have for a key, if all have one. -/
def shapesAt? (key : String) (os : List ObjectShape) : Option (List Shape) := os.mapM (·.get? key)

theorem exists_get?_of_shapesAt? {key : String} {os : List ObjectShape} {us : List Shape}
    (h : shapesAt? key os = some us) {u : Shape} (hu : u ∈ us) : ∃ o ∈ os, o.get? key = some u :=
  exists_left_of_forall₂ (mapM_eq_some_iff.mp h) hu

theorem exists_mem_of_shapesAt? {key : String} {os : List ObjectShape} {us : List Shape}
    (h : shapesAt? key os = some us) {o : ObjectShape} (ho : o ∈ os) : ∃ u ∈ us, o.get? key = some u :=
  exists_right_of_forall₂ (mapM_eq_some_iff.mp h) ho

theorem exists_shapesAt? {key : String} {os : List ObjectShape} (h : ∀ o ∈ os, key ∈ o.keys) :
    ∃ us, shapesAt? key os = some us :=
  exists_mapM_eq_some fun o ho => ObjectShape.exists_get?_of_mem_keys (h o ho)

/-- Shapes that are all objects are these objects. -/
theorem allObjects?_eq_some_iff {ts : List Shape} {os : List ObjectShape} :
    allObjects? ts = some os ↔ ts = os.map .object := by
  rw [allObjects?, mapM_eq_some_iff]
  constructor
  · intro h
    induction h with
    | nil => rfl
    | cons h _ ih => rw [List.map_cons, ← ih, Shape.toObject?_eq_some_iff.mp h]
  · rintro rfl
    exact List.forall₂_map_left_iff.mpr (List.forall₂_same.mpr fun _ _ => rfl)

theorem allObjects?_object_cons (o : ObjectShape) (ts : List Shape) :
    allObjects? (.object o :: ts) = (allObjects? ts).map (o :: ·) := by
  rw [allObjects?, List.mapM_cons, ← allObjects?]
  cases allObjects? ts <;> rfl

/-- Where one shape is no object, not all are. -/
theorem allObjects?_eq_none {t : Shape} {ts : List Shape} (ht : t ∈ ts) (h : t.toObject? = none) :
    allObjects? ts = none := by
  cases hos : allObjects? ts with
  | none => rfl
  | some os =>
    obtain ⟨o, -, ho⟩ := exists_right_of_forall₂ (mapM_eq_some_iff.mp hos) ht
    rw [h] at ho
    cases ho

/-- Where not all shapes are objects, one is none. -/
theorem exists_of_allObjects?_eq_none {ts : List Shape} (h : allObjects? ts = none) :
    ∃ t ∈ ts, t.toObject? = none := by
  by_contra hn
  push Not at hn
  obtain ⟨os, hos⟩ := exists_mapM_eq_some fun t ht => Option.ne_none_iff_exists'.mp (hn t ht)
  rw [allObjects?, hos] at h
  cases h

theorem joinProperties_cons (key : String) (t : Shape) (rest : List (String × Shape))
    (others : List ObjectShape) : joinProperties ((key, t) :: rest) others =
      match shapesAt? key others with
      | none => joinProperties rest others
      | some us => (key, t.join us) :: joinProperties rest others := rfl

/-- A key stays if every object has it. -/
theorem joinProperties_eq_filterMap (properties : List (String × Shape)) (others : List ObjectShape) :
    joinProperties properties others = properties.filterMap fun p =>
      (shapesAt? p.1 others).map fun us => (p.1, p.2.join us) := by
  induction properties with
  | nil => rfl
  | cons p rest ih =>
    obtain ⟨key, t⟩ := p
    rw [joinProperties_cons, ih]
    cases h : shapesAt? key others <;> simp [h]

/-- An object alone is its own join. -/
theorem joinProperties_nil (properties : List (String × Shape)) :
    joinProperties properties [] = properties := by
  rw [joinProperties_eq_filterMap]
  exact List.filterMap_some

namespace ObjectShape

variable {o : ObjectShape} {others : List ObjectShape}

@[simp] theorem name_joinWith : (o.joinWith others).name = o.name := by cases o; rfl

@[simp] theorem depth_joinWith : (o.joinWith others).depth = o.depth := by cases o; rfl

theorem properties_joinWith : (o.joinWith others).properties = joinProperties o.properties others := by
  cases o; rfl

/-- The properties of a join: those of the first object, joined with the others'. -/
theorem mem_properties_joinWith {k : String} {v : Shape} : (k, v) ∈ (o.joinWith others).properties ↔
    ∃ t us, (k, t) ∈ o.properties ∧ shapesAt? k others = some us ∧ v = t.join us := by
  rw [properties_joinWith, joinProperties_eq_filterMap, List.mem_filterMap]
  constructor
  · rintro ⟨⟨k', t⟩, ht, h⟩
    obtain ⟨us, hus, h⟩ := Option.map_eq_some_iff.mp h
    obtain ⟨rfl, rfl⟩ := Prod.mk.inj h
    exact ⟨t, us, ht, hus, rfl⟩
  · rintro ⟨t, us, ht, hus, rfl⟩
    exact ⟨(k, t), ht, by rw [hus]; rfl⟩

/-- The keys of a join stand as they stand in the first object. -/
theorem keys_joinWith_sublist : (o.joinWith others).keys.Sublist o.keys := by
  rw [keys, properties_joinWith, keys]
  induction o.properties with
  | nil => exact List.Sublist.refl _
  | cons p rest ih =>
    obtain ⟨key, t⟩ := p
    rw [joinProperties_cons]
    cases shapesAt? key others with
    | none => exact ih.cons _
    | some us => exact ih.cons_cons _

end ObjectShape

/-! ### Unification yields joins -/

theorem unifyAround_yields (t : Shape) (others : List Shape) {inner : Pass Shape} {u : Shape}
    (h : inner.Yields (.ok u)) : (unifyAround t others inner).Yields (.ok (t.joinAround others u)) := by
  refine Pass.Yields.after_check ?_
  unfold Shape.joinAround
  split
  · exact h.map (·.wrap t.arrayDepth)
  · exact Pass.yields_pure _

theorem foldl_join_anything (ts : List Shape) :
    ts.foldl (fun q u => q.join u.toPrimitive) Primitive.anything = .anything := by
  induction ts with
  | nil => rfl
  | cons t rest ih =>
    rw [List.foldl_cons, show Primitive.anything.join t.toPrimitive = .anything by
      cases t.toPrimitive <;> rfl]
    exact ih

/-- Shapes of which the first is no primitive have none in common but what accepts anything. -/
theorem scalarMinimum_cons_of_anything {t : Shape} (h : t.toPrimitive = .anything)
    (others : List Shape) : scalarMinimum (t :: others) = .ok .anything := by
  rw [scalarMinimum, h, foldl_join_anything]

mutual
theorem unifyInner_yields : ∀ (t : Shape) (others : List Shape),
    (unifyInner t others).Yields (.ok (t.joinInner others))
  | .array e, others => unifyInner_yields e others
  | .prim p, others =>
    (Pass.yields_ofExcept (scalarMinimum (.prim p :: others))).map Shape.prim
  | .object o, others => by
    rw [unifyInner, Shape.joinInner]
    cases allObjects? others with
    | some us => exact (unifyWith_yields o us).map ObjectShape.orAnything
    | none =>
      simp only [scalarMinimum_cons_of_anything (show (Shape.object o).toPrimitive = .anything from rfl)]
      exact (Pass.yields_ofExcept (.ok Primitive.anything)).map Shape.prim
termination_by structural t => t
theorem unifyWith_yields : ∀ (o : ObjectShape) (others : List ObjectShape),
    (unifyWith o others).Yields (.ok (o.joinWith others))
  | ⟨name, depth, properties⟩, others => by
    rw [unifyWith]
    refine Pass.Yields.after_check ?_
    cases others with
    | nil => rw [ObjectShape.joinWith, joinProperties_nil]; exact Pass.yields_pure _
    | cons u us =>
      exact (unifyProperties_yields properties (u :: us)).map (ObjectShape.mk name depth)
termination_by structural o => o
theorem unifyProperties_yields : ∀ (properties : List (String × Shape)) (others : List ObjectShape),
    (unifyProperties properties others).Yields (.ok (joinProperties properties others))
  | [], _ => Pass.yields_pure []
  | (key, t) :: rest, others => by
    rw [unifyProperties, joinProperties_cons, shapesAt?]
    cases others.mapM (·.get? key) with
    | none => exact unifyProperties_yields rest others
    | some us =>
      have hr (u : Shape) := (unifyProperties_yields rest others).map ((key, u) :: ·)
      simp only [Shape.join]
      split
      · exact (Pass.yields_pure t).bind_ok (hr t)
      · exact (unifyAround_yields t us (unifyInner_yields t _)).bind_ok (hr _)
termination_by structural properties => properties
end

theorem unifyShapes_yields (t : Shape) (others : List Shape) :
    (unifyShapes (t :: others)).Yields (.ok (t.joinAll others)) :=
  unifyAround_yields t others (unifyInner_yields t _)

theorem unifyObjects_yields (o : ObjectShape) (others : List ObjectShape) :
    (unifyObjects (o :: others)).Yields (.ok (o.joinWith others)) :=
  unifyWith_yields o others

end JsonShape
