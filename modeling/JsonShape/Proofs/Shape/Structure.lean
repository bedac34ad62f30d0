import JsonShape.Shape
import JsonShape.Proofs.KeyedList

/-!
# The structure of shapes

Induction on shapes, the arrays around a shape and what is inside them, the properties of an object by
key, and proper shapes: those in which no object has a key twice and no object below the top is empty,
as every inferred shape is.
-/

namespace JsonShape

/-- Induction on a shape: an object's properties come before the object. -/
@[elab_as_elim]
theorem Shape.induction {motive : Shape → Prop} (prim : ∀ p, motive (.prim p))
    (array : ∀ e, motive e → motive (.array e))
    (object : ∀ o : ObjectShape, (∀ k t, (k, t) ∈ o.properties → motive t) → motive (.object o))
    (t : Shape) : motive t :=
  @Shape.rec motive (fun o => ∀ k t, (k, t) ∈ o.properties → motive t)
    (fun properties => ∀ k t, (k, t) ∈ properties → motive t) (fun property => motive property.2)
    prim array object (fun _ _ _ h => h)
    (fun _ _ h => nomatch h)
    (fun property rest hp hr k t h => by
      rcases List.mem_cons.mp h with rfl | h
      · exact hp
      · exact hr k t h)
    (fun _ _ h => h) t

namespace Shape

/-! ### Arrays around a shape -/

@[simp] theorem arrayDepth_wrap (t : Shape) (n : Nat) : (t.wrap n).arrayDepth = t.arrayDepth + n := by
  induction n with
  | zero => rfl
  | succ n ih => simp only [wrap, arrayDepth, ih, Nat.add_assoc]

@[simp] theorem innermost_wrap (t : Shape) (n : Nat) : (t.wrap n).innermost = t.innermost := by
  induction n with
  | zero => rfl
  | succ n ih => simp only [wrap, innermost, ih]

/-- A shape is what is inside its arrays, in as many arrays. -/
theorem wrap_innermost (t : Shape) : t.innermost.wrap t.arrayDepth = t := by
  induction t using Shape.induction with
  | prim p => rfl
  | array e ih => simp only [innermost, arrayDepth, wrap, ih]
  | object o => rfl

/-- What is inside the arrays of a shape is no array. -/
theorem innermost_cases (t : Shape) : (∃ p, t.innermost = .prim p) ∨ ∃ o, t.innermost = .object o := by
  induction t using Shape.induction with
  | prim p => exact .inl ⟨p, rfl⟩
  | array e ih => exact ih
  | object o => exact .inr ⟨o, rfl⟩

@[simp] theorem arrayDepth_innermost (t : Shape) : t.innermost.arrayDepth = 0 := by
  rcases t.innermost_cases with ⟨p, h⟩ | ⟨o, h⟩ <;> rw [h] <;> rfl

/-- A shape that is no array is inside no array. -/
theorem eq_innermost_of_arrayDepth {t : Shape} (h : t.arrayDepth = 0) : t = t.innermost := by
  cases t with
  | array e => simp [arrayDepth] at h
  | prim p => rfl
  | object o => rfl

theorem toObject?_eq_some_iff {t : Shape} {o : ObjectShape} : t.toObject? = some o ↔ t = .object o := by
  cases t <;> simp [toObject?]

theorem innerObject?_eq_some_iff {t : Shape} {o : ObjectShape} :
    t.innerObject? = some o ↔ t.innermost = .object o := toObject?_eq_some_iff

@[simp] theorem innerObject?_wrap (t : Shape) (n : Nat) : (t.wrap n).innerObject? = t.innerObject? := by
  simp only [innerObject?, innermost_wrap]

end Shape

/-! ### Properties by key -/

namespace ObjectShape

theorem isEmpty_iff {o : ObjectShape} : o.isEmpty = true ↔ o.properties = [] := List.isEmpty_iff

theorem isEmpty_eq_false_iff {o : ObjectShape} : o.isEmpty = false ↔ o.properties ≠ [] :=
  List.isEmpty_eq_false_iff

theorem mem_keys {o : ObjectShape} {k : String} : k ∈ o.keys ↔ ∃ t, (k, t) ∈ o.properties := by
  simp [keys]

/-- The shape of a key is that of a property. -/
theorem mem_of_get? {o : ObjectShape} {k : String} {t : Shape} (h : o.get? k = some t) :
    (k, t) ∈ o.properties := mem_of_lookup h

/-- An object has a shape for each of its keys. -/
theorem exists_get?_of_mem_keys {o : ObjectShape} {k : String} (h : k ∈ o.keys) :
    ∃ t, o.get? k = some t := by
  obtain ⟨t, ht⟩ := mem_keys.mp h
  exact exists_lookup_of_mem ht

theorem mem_keys_of_get? {o : ObjectShape} {k : String} {t : Shape} (h : o.get? k = some t) :
    k ∈ o.keys := mem_keys.mpr ⟨t, mem_of_get? h⟩

/-- Where no key comes twice, each property is the one of its key. -/
theorem get?_of_mem {o : ObjectShape} (hk : o.keys.Nodup) {k : String} {t : Shape}
    (h : (k, t) ∈ o.properties) : o.get? k = some t := lookup_of_mem hk h

end ObjectShape

/-! ### Proper shapes -/

/-- No object in the shape has a key twice. -/
inductive Shape.Keyed : Shape → Prop
  | prim (p : Primitive) : Keyed (.prim p)
  | array {e : Shape} : Keyed e → Keyed (.array e)
  | object {o : ObjectShape} : o.keys.Nodup → (∀ k t, (k, t) ∈ o.properties → Keyed t) →
      Keyed (.object o)

/-- No object in the shape has a key twice and none is empty. -/
inductive Shape.Proper : Shape → Prop
  | prim (p : Primitive) : Proper (.prim p)
  | array {e : Shape} : Proper e → Proper (.array e)
  | object {o : ObjectShape} : o.isEmpty = false → o.keys.Nodup →
      (∀ k t, (k, t) ∈ o.properties → Proper t) → Proper (.object o)

/-- An object shape is proper if it has no key twice and proper shapes for its keys. It may be empty. -/
structure ObjectShape.Proper (o : ObjectShape) : Prop where
  keys_nodup : o.keys.Nodup
  property : ∀ {k t}, (k, t) ∈ o.properties → t.Proper

theorem Shape.Proper.keyed {t : Shape} (h : t.Proper) : t.Keyed := by
  induction h with
  | prim p => exact .prim p
  | array _ ih => exact .array ih
  | object _ hk _ ih => exact .object hk ih

theorem ObjectShape.Proper.keyed {o : ObjectShape} (h : o.Proper) : (Shape.object o).Keyed :=
  .object h.keys_nodup fun _ _ hp => (h.property hp).keyed

theorem Shape.keyed_array_iff {e : Shape} : (Shape.array e).Keyed ↔ e.Keyed :=
  ⟨fun h => by cases h; assumption, .array⟩

theorem Shape.keyed_innermost_iff {t : Shape} : t.innermost.Keyed ↔ t.Keyed := by
  induction t using Shape.induction with
  | prim p => rfl
  | array e ih => rw [innermost, ih, keyed_array_iff]
  | object o => rfl

theorem Shape.keyed_object_iff {o : ObjectShape} :
    (Shape.object o).Keyed ↔ o.keys.Nodup ∧ ∀ k t, (k, t) ∈ o.properties → t.Keyed :=
  ⟨fun h => by cases h; constructor <;> assumption, fun ⟨hk, hp⟩ => .object hk hp⟩

theorem ObjectShape.keyed_iff {o : ObjectShape} :
    (Shape.object o).Keyed ↔ o.keys.Nodup ∧ ∀ p ∈ o.properties, p.2.Keyed := by
  rw [Shape.keyed_object_iff, Prod.forall]

theorem Shape.proper_array_iff {e : Shape} : (Shape.array e).Proper ↔ e.Proper :=
  ⟨fun h => by cases h; assumption, .array⟩

theorem Shape.proper_object_iff {o : ObjectShape} :
    (Shape.object o).Proper ↔ o.isEmpty = false ∧ o.Proper := by
  constructor
  · intro h
    cases h with
    | object he hk hp => exact ⟨he, hk, fun h => hp _ _ h⟩
  · rintro ⟨he, hk, hp⟩
    exact .object he hk fun _ _ h => hp h

@[simp] theorem Shape.proper_wrap_iff {t : Shape} {n : Nat} : (t.wrap n).Proper ↔ t.Proper := by
  induction n with
  | zero => rfl
  | succ n ih => rw [wrap, proper_array_iff, ih]

theorem Shape.proper_innermost_iff {t : Shape} : t.innermost.Proper ↔ t.Proper := by
  conv_rhs => rw [← t.wrap_innermost, proper_wrap_iff]

/-- The object inside a proper shape is proper and not empty. -/
theorem Shape.Proper.innerObject {t : Shape} (h : t.Proper) {o : ObjectShape}
    (ho : t.innerObject? = some o) : o.isEmpty = false ∧ o.Proper := by
  rw [← proper_innermost_iff, innerObject?_eq_some_iff.mp ho] at h
  exact proper_object_iff.mp h

/-- A shape is proper if the object inside it, where there is one, is proper and not empty. -/
theorem Shape.proper_of_innerObject {t : Shape}
    (h : ∀ o, t.innerObject? = some o → o.isEmpty = false ∧ o.Proper) : t.Proper := by
  rw [← proper_innermost_iff]
  rcases t.innermost_cases with ⟨p, hp⟩ | ⟨o, ho⟩
  · exact hp ▸ .prim p
  · exact ho ▸ proper_object_iff.mpr (h o (innerObject?_eq_some_iff.mpr ho))

theorem ObjectShape.proper_iff {o : ObjectShape} :
    o.Proper ↔ o.keys.Nodup ∧ ∀ p ∈ o.properties, p.2.Proper :=
  ⟨fun h => ⟨h.keys_nodup, fun _ hp => h.property hp⟩, fun ⟨hk, hp⟩ => ⟨hk, fun h => hp _ h⟩⟩

theorem ObjectShape.Proper.get? {o : ObjectShape} (h : o.Proper) {k : String} {t : Shape}
    (hk : o.get? k = some t) : t.Proper := h.property (mem_of_get? hk)

end JsonShape
