import JsonShape.Proofs.Shape.Scope

/-!
# Scopes at once

What a scope becomes when properties are bound in it one after another, said of all of them at once. A shape
with no object inside stays as it is. An object gives its place, inside as many arrays, to the unification of
all objects of its name, whichever were bound before it and whichever after, or to what accepts anything if
nothing is left of them. So no earlier property keeps a shape that a later one has overtaken, and no name
comes back. The scope's registry ends with just the objects that the scope's object shape refers to.
-/

namespace JsonShape

/-! ### The specification -/

/-- The shape `u` is what a bound shape becomes among bound objects: the object inside it becomes the
unification of all of them that have its name. -/
def Shape.SettlesAs (os : List ObjectShape) (t u : Shape) : Prop :=
  match t.innerObject? with
  | none => u = t
  | some o => ∃ j, (unifyObjects (os.filter (·.name = o.name))).Yields (.ok j) ∧
      u = (if j.isEmpty then Shape.anything else .object j).wrap t.arrayDepth

/-- Binds properties one after another in a new scope. -/
def Scope.bindAll (name : String) (depth : Nat) (bs : List (String × Shape)) : Pass Scope :=
  bs.foldlM (fun s b => s.bind b.1 b.2) { name, depth }

/-! ### Names at once -/

/-- A settled shape is what the shape becomes among the objects. -/
theorem Shape.settlesAs_settle {os : List ObjectShape} (hos : ∀ o ∈ os, (Shape.object o).Keyed) {t : Shape}
    (ht : ∀ o, t.innerObject? = some o → o ∈ os) : t.SettlesAs os (t.settle os) := by
  unfold SettlesAs
  cases ho : t.innerObject? with
  | none => exact settle_of_none ho
  | some o =>
    simp only
    have hmem : o ∈ os.filter (·.name = o.name) := List.mem_filter.mpr ⟨ht o ho, by simp⟩
    have hsettled := settled?_eq hos o.name
    cases hf : os.filter (·.name = o.name) with
    | nil => rw [hf] at hmem; cases hmem
    | cons u us =>
      rw [hf] at hsettled
      refine ⟨u.joinWith us, unifyObjects_yields u us, ?_⟩
      rw [settle_of_some ho, hsettled]
      simp only
      split <;> rfl

/-- The first objects of each name, of objects that come from others by their names, come from the first
ones of these. -/
theorem firstOfEachName_filterMap {f : ObjectShape → Option ObjectShape}
    (hname : ∀ o j, f o = some j → j.name = o.name) (hf : ∀ o u, o.name = u.name → f o = f u)
    (os : List ObjectShape) :
    firstOfEachName (os.filterMap f) = (firstOfEachName os).filterMap f := by
  induction os with
  | nil => rfl
  | cons o rest ih =>
    rw [firstOfEachName, List.filterMap_cons, List.filterMap_cons]
    cases ho : f o with
    | none =>
      simp only [ih]
      -- what is dropped has the name of `o`, and nothing comes from it either
      rw [List.filterMap_filter]
      refine List.filterMap_congr fun u _ => ?_
      by_cases hu : u.name = o.name
      · simp [hu, hf u o hu, ho]
      · simp [hu]
    | some j =>
      simp only
      rw [firstOfEachName, ih, List.filter_filterMap, List.filterMap_filter, hname o j ho]
      congr 1
      refine List.filterMap_congr fun u _ => ?_
      cases hu : f u with
      | none => simp
      | some k => simp [hname u k hu, Option.filter_some]

/-- The objects that the object of a scope refers to are what the names of the objects bound stand for. -/
theorem subtypes_settledObject {name : String} {depth : Nat} {bs : List (String × Shape)}
    (hkeys : (bs.map (·.1)).Nodup) :
    (settledObject name depth bs).subtypes = settledAll (innerObjects bs) := by
  have hinner : ((bound bs).map fun b => (b.1, b.2.settle (innerObjects bs))).filterMap (·.2.innerObject?) =
      (innerObjects bs).filterMap fun o => settled? (innerObjects bs) o.name := by
    rw [bound_eq_self hkeys, List.filterMap_map]
    conv_rhs => rw [innerObjects, List.filterMap_filterMap]
    exact List.filterMap_congr fun b _ => Shape.innerObject?_settle
  show firstOfEachName (((bound bs).map fun b => (b.1, b.2.settle (innerObjects bs))).filterMap
    (·.2.innerObject?)) = _
  rw [hinner]
  refine firstOfEachName_filterMap (fun o j h => name_of_settled? h) (fun o u h => ?_) _
  rw [h]

/-! ### Binding all properties -/

/-- Binding properties one after another yields a scope that has come about so. -/
theorem Scope.bindAll_yields (name : String) (depth : Nat) {bs : List (String × Shape)}
    (hkeyed : ∀ b ∈ bs, b.2.Keyed) (hne : ∀ b ∈ bs, ∀ o, b.2.innerObject? = some o → o.isEmpty = false) :
    ∃ s : Scope, (bindAll name depth bs).Yields (.ok s) ∧ s.Reflects bs ∧ s.name = name ∧ s.depth = depth := by
  refine Pass.exists_yields_foldlM
    (I := fun (s : Scope) done => s.Reflects done ∧ s.name = name ∧ s.depth = depth) ?_
    ⟨reflects_nil name depth, rfl, rfl⟩
  rintro s done b ⟨hs, hname, hdepth⟩ hmem
  rw [List.forall_mem_append, List.forall_mem_singleton] at hmem
  obtain ⟨s', hs', hreflects, hname', hdepth'⟩ :=
    hs.bind_of_keyed (fun c hc => hkeyed c (hmem.1 c hc)) b.1 (hkeyed b hmem.2) (hne b hmem.2)
  exact ⟨s', hs', hreflects, hname'.trans hname, hdepth'.trans hdepth⟩

/-- **A scope is what its properties make of it at once.** When properties with different keys have been bound
in a new scope one after another, its object shape has exactly their keys, in the order in which they were
bound, each with what its shape becomes among all objects bound; and it refers to exactly the objects that are
left in the scope's registry, in the order of their registration. -/
theorem bindAll_eq_batch (name : String) (depth : Nat) {bs : List (String × Shape)}
    (hkeys : (bs.map (·.1)).Nodup) (hkeyed : ∀ b ∈ bs, b.2.Keyed)
    (hne : ∀ b ∈ bs, ∀ o, b.2.innerObject? = some o → o.isEmpty = false) :
    ∃ s : Scope, (Scope.bindAll name depth bs).Yields (.ok s) ∧
      s.shape.name = name ∧ s.shape.depth = depth ∧ s.shape.keys = bs.map (·.1) ∧
      (∀ k t, (k, t) ∈ bs → ∃ u, s.shape.get? k = some u ∧ t.SettlesAs (innerObjects bs) u) ∧
      s.shape.subtypes = s.registry.types := by
  obtain ⟨s, hs, hreflects, rfl, rfl⟩ := Scope.bindAll_yields name depth hkeyed hne
  have hos : ∀ o ∈ innerObjects bs, (Shape.object o).Keyed := fun o => keyed_of_mem_innerObjects hkeyed
  have hsettled : (settledObject s.name s.depth bs).keys = bs.map (·.1) := by
    rw [keys_settledObject, bound_eq_self hkeys]
  refine ⟨s, hs, rfl, rfl, hreflects.shape_eq ▸ hsettled, fun k t hb => ?_, ?_⟩
  · refine ⟨t.settle (innerObjects bs), ?_, Shape.settlesAs_settle hos fun o ho =>
      mem_innerObjects.mpr ⟨k, t, hb, ho⟩⟩
    rw [hreflects.shape_eq]
    refine ObjectShape.get?_of_mem (hsettled ▸ hkeys) ?_
    rw [settledObject, bound_eq_self hkeys]
    exact List.mem_map.mpr ⟨(k, t), hb, rfl⟩
  · rw [hreflects.shape_eq, subtypes_settledObject hkeys, hreflects.registry.types]

/-- Three objects of one name in different arrays, of which the last widens the first, and three of another,
of which the second leaves nothing of the first and the third comes too late. -/
theorem bindAll_eq_batch_retired :
    let p (x : Primitive) (more : List (String × Shape)) : ObjectShape := ⟨"P", 1, ("x", .prim x) :: more⟩
    let s (key : String) : ObjectShape := ⟨"S", 1, [(key, .prim .string)]⟩
    let bs : List (String × Shape) := [("p", .object (p .integer [])), ("n", .prim .integer),
      ("q", .array (.object (p .integer [("y", .anything)]))), ("s", .object (s "a")), ("S", .object (s "b")),
      ("s!", .array (.object (s "a"))), ("P", .array (.array (.object (p .float []))))]
    let scope : Scope := {
      name := "Root"
      depth := 0
      properties := [("p", .object (p .float [])), ("n", .prim .integer), ("q", .array (.object (p .float []))),
        ("s", .anything), ("S", .anything), ("s!", .array .anything),
        ("P", .array (.array (.object (p .float []))))]
      registry := { types := [p .float []], retired := ["S"] } }
    (Scope.bindAll "Root" 0 bs).Yields (.ok scope) ∧
      (∃ u, scope.shape.get? "q" = some u ∧
        (Shape.array (.object (p .integer [("y", .anything)]))).SettlesAs (innerObjects bs) u) ∧
      scope.shape.subtypes = scope.registry.types := by
  intro p s bs scope
  have hkeyed : ∀ b ∈ bs, b.2.Keyed := by
    simp only [bs, p, s, List.forall_mem_cons, List.not_mem_nil, false_imp_iff, implies_true, and_true,
      ObjectShape.keyed_iff, Shape.keyed_array_iff, Shape.Keyed.prim]
    decide
  have hne : ∀ b ∈ bs, ∀ o, b.2.innerObject? = some o → o.isEmpty = false := by
    simp only [bs, p, s, List.forall_mem_cons, List.not_mem_nil, false_imp_iff, implies_true, and_true]
    simp [Shape.innerObject?, Shape.innermost, Shape.toObject?, ObjectShape.isEmpty]
  obtain ⟨t, ht, -, -, -, hbound, hsubtypes⟩ :=
    bindAll_eq_batch "Root" 0 (show (bs.map (·.1)).Nodup by decide) hkeyed hne
  have e : Except.ok scope = Except.ok t := ht.run_none {}
  cases e
  exact ⟨ht, hbound "q" _ (by simp [bs]), hsubtypes⟩

end JsonShape
