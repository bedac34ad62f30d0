import JsonShape.Shape.Scope
import JsonShape.Proofs.Shape.Registry

/-!
# What a scope becomes

A scope in which properties have been bound one after another is described by the list of them: each key
has its shape, in which an object is replaced by what its name stands for among all objects bound. So
every property of a name has the same object, whenever it was bound. `settledObject` is the object shape
that the scope becomes, and `Scope.Reflects` says that a scope has come about so.
-/

namespace JsonShape

/-! ### Settled shapes -/

/-- The objects inside the arrays of bound shapes. -/
def innerObjects (bs : List (String × Shape)) : List ObjectShape := bs.filterMap (·.2.innerObject?)

/-- Properties set one after another. -/
def bound (bs : List (String × Shape)) : List (String × Shape) :=
  bs.foldl (fun ps b => Scope.setProperty ps b.1 b.2) []

/-- What comes into the place of an object whose name stands for another object, or for none. -/
def replacement (registered : Option ObjectShape) : Shape := registered.elim .anything .object

/-- A shape with the object inside its arrays replaced by what its name stands for. -/
def Shape.settle (os : List ObjectShape) (t : Shape) : Shape :=
  match t.innerObject? with
  | none => t
  | some o => (replacement (settled? os o.name)).wrap t.arrayDepth

/-- The object shape that a scope becomes when properties have been bound in it. -/
def settledObject (name : String) (depth : Nat) (bs : List (String × Shape)) : ObjectShape :=
  ⟨name, depth, (bound bs).map fun b => (b.1, b.2.settle (innerObjects bs))⟩

theorem mem_innerObjects {bs : List (String × Shape)} {o : ObjectShape} :
    o ∈ innerObjects bs ↔ ∃ k t, (k, t) ∈ bs ∧ t.innerObject? = some o := by
  simp [innerObjects]

theorem keyed_of_mem_innerObjects {bs : List (String × Shape)} (hbs : ∀ b ∈ bs, b.2.Keyed)
    {o : ObjectShape} (h : o ∈ innerObjects bs) : (Shape.object o).Keyed := by
  obtain ⟨k, t, hb, ht⟩ := mem_innerObjects.mp h
  exact (hbs _ hb).innerObject ht

/-- The objects inside proper shapes are proper and not empty. -/
theorem proper_of_mem_innerObjects {bs : List (String × Shape)} (hbs : ∀ b ∈ bs, b.2.Proper)
    {o : ObjectShape} (h : o ∈ innerObjects bs) : o.Proper := by
  obtain ⟨k, t, hb, ht⟩ := mem_innerObjects.mp h
  exact ((hbs _ hb).innerObject ht).2

namespace Shape

variable {os : List ObjectShape} {o : ObjectShape} {t : Shape}

theorem settle_of_none (h : t.innerObject? = none) : t.settle os = t := by
  simp only [settle, h]

theorem settle_of_some (h : t.innerObject? = some o) :
    t.settle os = (replacement (settled? os o.name)).wrap t.arrayDepth := by
  simp only [settle, h]

/-- The object inside a settled shape is what the name of the object before stands for. -/
theorem innerObject?_settle :
    (t.settle os).innerObject? = t.innerObject?.bind fun o => settled? os o.name := by
  cases h : t.innerObject? with
  | none => rw [settle_of_none h, h]; rfl
  | some o =>
    rw [settle_of_some h, innerObject?_wrap, Option.bind_some]
    cases settled? os o.name <;> rfl

@[simp] theorem arrayDepth_settle : (t.settle os).arrayDepth = t.arrayDepth := by
  cases h : t.innerObject? with
  | none => rw [settle_of_none h]
  | some o =>
    rw [settle_of_some h, arrayDepth_wrap]
    cases settled? os o.name <;> simp [replacement, arrayDepth]

/-- Replacing the objects of a name by what the name stands for after one more registration settles a
shape again. -/
theorem replaceObject_settle (ht : ∀ u, t.innerObject? = some u → u ∈ os) :
    (t.settle os).replaceObject o.name (replacement (settled? (os ++ [o]) o.name)) =
      t.settle (os ++ [o]) := by
  unfold replaceObject
  rw [innerObject?_settle, arrayDepth_settle]
  cases h : t.innerObject? with
  | none => rw [settle_of_none h, settle_of_none h]; rfl
  | some u =>
    rw [Option.bind_some, settle_of_some h, settle_of_some h]
    cases hs : settled? os u.name with
    | none => rw [settled?_append_of_none (ht u h) hs]
    | some j =>
      simp only
      rw [name_of_settled? hs]
      split
      · next hn => rw [hn]
      · next hn => rw [settled?_append_of_ne (Ne.symm hn), hs]

end Shape

/-! ### Bound properties -/

namespace Scope

theorem setProperty_of_not_mem {ps : List (String × Shape)} {k : String} {t : Shape}
    (h : k ∉ ps.map (·.1)) : setProperty ps k t = ps ++ [(k, t)] := by
  induction ps with
  | nil => rfl
  | cons p rest ih =>
    rw [List.map_cons, List.mem_cons, not_or] at h
    rw [setProperty, if_neg (Ne.symm h.1), ih h.2, List.cons_append]

theorem mem_setProperty {ps : List (String × Shape)} {k : String} {t : Shape} {p : String × Shape}
    (h : p ∈ setProperty ps k t) : p = (k, t) ∨ p ∈ ps := by
  induction ps with
  | nil => exact .inl (List.mem_singleton.mp h)
  | cons q rest ih =>
    rw [setProperty] at h
    split at h
    · next hq =>
      rw [hq, List.mem_cons] at h
      exact h.imp id (List.mem_cons_of_mem _)
    · rcases List.mem_cons.mp h with rfl | h
      · exact .inr (List.mem_cons_self ..)
      · exact (ih h).imp id (List.mem_cons_of_mem _)

/-- Setting a property keeps the keys there are, and adds none that is there. -/
theorem nodup_keys_setProperty {ps : List (String × Shape)} (h : (ps.map (·.1)).Nodup) (k : String)
    (t : Shape) : ((setProperty ps k t).map (·.1)).Nodup := by
  by_cases hk : k ∈ ps.map (·.1)
  · have hkeys : ∀ qs : List (String × Shape), k ∈ qs.map (·.1) →
        (setProperty qs k t).map (·.1) = qs.map (·.1) := by
      intro qs hk
      induction qs with
      | nil => cases hk
      | cons q rest ih =>
        rw [setProperty]
        split
        · rfl
        · next hq =>
          rw [List.map_cons, List.map_cons, ih ((List.mem_cons.mp hk).resolve_left (Ne.symm hq))]
    rw [hkeys ps hk]
    exact h
  · rw [setProperty_of_not_mem hk, List.map_append, List.map_singleton]
    refine List.nodup_append.mpr ⟨h, List.nodup_singleton k, fun k' hk' x hx heq => ?_⟩
    exact hk (by rwa [heq, List.mem_singleton.mp hx] at hk')

theorem setProperty_map (f : Shape → Shape) (ps : List (String × Shape)) (k : String) (t : Shape) :
    setProperty (ps.map fun p => (p.1, f p.2)) k (f t) =
      (setProperty ps k t).map fun p => (p.1, f p.2) := by
  induction ps with
  | nil => rfl
  | cons p rest ih =>
    rw [List.map_cons, setProperty, setProperty]
    split
    · rfl
    · rw [ih, List.map_cons]

end Scope

theorem bound_append (bs : List (String × Shape)) (b : String × Shape) :
    bound (bs ++ [b]) = Scope.setProperty (bound bs) b.1 b.2 := by
  simp [bound]

theorem nodup_keys_bound (bs : List (String × Shape)) : ((bound bs).map (·.1)).Nodup := by
  induction bs using List.reverseRecOn with
  | nil => exact List.nodup_nil
  | append_singleton bs b ih => rw [bound_append]; exact Scope.nodup_keys_setProperty ih b.1 b.2

theorem mem_of_mem_bound {bs : List (String × Shape)} {p : String × Shape} (h : p ∈ bound bs) :
    p ∈ bs := by
  induction bs using List.reverseRecOn with
  | nil => cases h
  | append_singleton bs b ih =>
    rw [bound_append] at h
    rcases Scope.mem_setProperty h with rfl | h
    · exact List.mem_append_right _ (List.mem_singleton_self _)
    · exact List.mem_append_left _ (ih h)

/-- Properties none of whose keys comes twice are bound as they are. -/
theorem bound_eq_self {bs : List (String × Shape)} (h : (bs.map (·.1)).Nodup) : bound bs = bs := by
  induction bs using List.reverseRecOn with
  | nil => rfl
  | append_singleton bs b ih =>
    rw [List.map_append, List.map_singleton, List.nodup_append] at h
    rw [bound_append, ih h.1, Scope.setProperty_of_not_mem fun hk => h.2.2 _ hk b.1 (by simp) rfl]

theorem bound_ne_nil {bs : List (String × Shape)} (h : bs ≠ []) : bound bs ≠ [] := by
  induction bs using List.reverseRecOn with
  | nil => exact absurd rfl h
  | append_singleton bs b _ =>
    rw [bound_append]
    cases bound bs with
    | nil => simp [Scope.setProperty]
    | cons p rest => rw [Scope.setProperty]; split <;> simp

/-! ### The object of a scope -/

section SettledObject

variable {bs : List (String × Shape)} {name : String} {depth : Nat}

/-- A property of the object of a scope is a property bound, settled. -/
theorem mem_properties_settledObject {k : String} {t : Shape}
    (h : (k, t) ∈ (settledObject name depth bs).properties) :
    ∃ u, (k, u) ∈ bs ∧ t = u.settle (innerObjects bs) := by
  obtain ⟨⟨k', u⟩, hb, heq⟩ := List.mem_map.mp h
  obtain ⟨rfl, rfl⟩ := Prod.mk.inj heq
  exact ⟨u, mem_of_mem_bound hb, rfl⟩

/-- The object inside a property of the object of a scope is what the name of the object bound stands for. -/
theorem exists_of_mem_settledObject {k : String} {t : Shape} {j : ObjectShape}
    (ht : (k, t) ∈ (settledObject name depth bs).properties) (hj : t.innerObject? = some j) :
    ∃ u o, (k, u) ∈ bs ∧ u.innerObject? = some o ∧ t.arrayDepth = u.arrayDepth ∧
      settled? (innerObjects bs) o.name = some j := by
  obtain ⟨u, hu, rfl⟩ := mem_properties_settledObject ht
  rw [Shape.innerObject?_settle, Option.bind_eq_some_iff] at hj
  obtain ⟨o, ho, hj⟩ := hj
  exact ⟨u, o, hu, ho, Shape.arrayDepth_settle, hj⟩

theorem keys_settledObject : (settledObject name depth bs).keys = (bound bs).map (·.1) := by
  simp [settledObject, ObjectShape.keys]

theorem isEmpty_settledObject (h : bs ≠ []) : (settledObject name depth bs).isEmpty = false := by
  rw [ObjectShape.isEmpty_eq_false_iff, settledObject]
  simpa using bound_ne_nil h

theorem proper_settle {os : List ObjectShape} (hos : ∀ o ∈ os, o.Proper) {t : Shape} (ht : t.Proper) :
    (t.settle os).Proper := by
  cases ho : t.innerObject? with
  | none => rwa [Shape.settle_of_none ho]
  | some o =>
    rw [Shape.settle_of_some ho, Shape.proper_wrap_iff]
    cases hj : settled? os o.name with
    | none => exact .prim _
    | some j => exact Shape.proper_object_iff.mpr ⟨isEmpty_of_settled? hj, proper_of_settled? hos hj⟩

/-- A settled shape is wider than the shape before. -/
theorem le_settle {os : List ObjectShape} (hos : ∀ o ∈ os, o.Proper) {t : Shape}
    (ht : ∀ o, t.innerObject? = some o → o ∈ os) : t ≤ t.settle os := by
  cases ho : t.innerObject? with
  | none => rw [Shape.settle_of_none ho]
  | some o =>
    refine Shape.le_iff_innermost.mpr (.inr ⟨Shape.arrayDepth_settle.symm, ?_⟩)
    obtain ⟨j, hj, hs⟩ := exists_isJoin_settled? hos (ht o ho)
    rw [Shape.settle_of_some ho, Shape.innermost_wrap, Shape.innerObject?_eq_some_iff.mp ho, hs]
    split
    · exact Shape.le_anything _
    · exact hj.le (List.mem_filter.mpr ⟨ht o ho, by simp⟩)

theorem proper_settledObject (hbs : ∀ b ∈ bs, b.2.Proper) : (settledObject name depth bs).Proper where
  keys_nodup := keys_settledObject ▸ nodup_keys_bound bs
  property h := by
    obtain ⟨u, hu, rfl⟩ := mem_properties_settledObject h
    exact proper_settle (fun o ho => proper_of_mem_innerObjects hbs ho) (hbs _ hu)

end SettledObject

/-! ### Binding -/

namespace Scope

variable {s : Scope} {bs : List (String × Shape)}

/-- The scope has come about by binding the properties of a list one after another. -/
structure Reflects (s : Scope) (bs : List (String × Shape)) : Prop where
  registry : s.registry.Reflects (innerObjects bs)
  properties : s.properties = (bound bs).map fun b => (b.1, b.2.settle (innerObjects bs))

theorem reflects_nil (name : String) (depth : Nat) : Reflects { name, depth } [] :=
  ⟨Registry.reflects_nil, rfl⟩

/-- The object shape of a scope is determined by what has been bound in it. -/
theorem Reflects.shape_eq (h : s.Reflects bs) : s.shape = settledObject s.name s.depth bs := by
  rw [shape, h.properties, settledObject]

/-- Binding a property yields a scope that has come about by binding it too. -/
theorem Reflects.bind_of_keyed (h : s.Reflects bs) (hbs : ∀ b ∈ bs, b.2.Keyed) (k : String) {t : Shape}
    (ht : t.Keyed) (hne : ∀ o, t.innerObject? = some o → o.isEmpty = false) :
    ∃ s' : Scope, (s.bind k t).Yields (.ok s') ∧ s'.Reflects (bs ++ [(k, t)]) ∧
      s'.name = s.name ∧ s'.depth = s.depth := by
  unfold Scope.bind
  cases ho : t.innerObject? with
  | none =>
    have hos : innerObjects (bs ++ [(k, t)]) = innerObjects bs := by
      simp [innerObjects, ho]
    refine ⟨_, Pass.yields_pure _, ⟨hos ▸ h.registry, ?_⟩, rfl, rfl⟩
    rw [hos, bound_append, ← setProperty_map, Shape.settle_of_none ho, h.properties]
  | some o =>
    have hos : innerObjects (bs ++ [(k, t)]) = innerObjects bs ++ [o] := by
      simp [innerObjects, ho]
    obtain ⟨r', hr, hreg⟩ := h.registry.register (fun u hu => keyed_of_mem_innerObjects hbs hu)
      (ht.innerObject ho) (hne o ho)
    refine ⟨_, hr.bind_ok (Pass.yields_pure _), ⟨hos ▸ hreg, ?_⟩, rfl, rfl⟩
    -- what was bound earlier is settled anew, and so is the shape that is bound
    have hnew : t.replaceObject o.name (replacement (settled? (innerObjects bs ++ [o]) o.name)) =
        t.settle (innerObjects bs ++ [o]) := by
      simp [Shape.replaceObject, Shape.settle_of_some ho, ho]
    have hold : s.properties.map (fun p => (p.1, p.2.replaceObject o.name
        (replacement (settled? (innerObjects bs ++ [o]) o.name)))) =
        (bound bs).map fun b => (b.1, b.2.settle (innerObjects bs ++ [o])) := by
      rw [h.properties, List.map_map]
      refine List.map_congr_left fun b hb => ?_
      simp only [Function.comp_apply]
      rw [Shape.replaceObject_settle fun u hu => mem_innerObjects.mpr ⟨b.1, b.2, mem_of_mem_bound hb, hu⟩]
    rw [hos, bound_append, ← setProperty_map, ← hnew, ← hold]
    rfl

/-- So does binding a proper one. -/
theorem Reflects.bind (h : s.Reflects bs) (hbs : ∀ b ∈ bs, b.2.Proper) (k : String) {t : Shape}
    (ht : t.Proper) : ∃ s' : Scope, (s.bind k t).Yields (.ok s') ∧ s'.Reflects (bs ++ [(k, t)]) ∧
      s'.name = s.name ∧ s'.depth = s.depth :=
  h.bind_of_keyed (fun b hb => (hbs b hb).keyed) k ht.keyed fun _ ho => (ht.innerObject ho).1

end Scope
end JsonShape
