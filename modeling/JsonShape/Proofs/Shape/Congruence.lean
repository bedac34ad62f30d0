import JsonShape.Proofs.Shape.Comparison
import Mathlib

/-!
# Unifying equal shapes

Unification respects structural equality: where each of its inputs is replaced by an equal one, its result is
replaced by an equal one. The other inputs count up to equality only, so what is left to show is that the first
input does too, of which the result takes its names, depths and orders.
-/

namespace JsonShape

/-! ### Joins of alike shapes -/

theorem ObjectShape.mem_keys_joinWith {o : ObjectShape} {us : List ObjectShape} {k : String} :
    k ∈ (o.joinWith us).keys ↔ k ∈ o.keys ∧ ∃ vs, shapesAt? k us = some vs := by
  simp only [mem_keys, mem_properties_joinWith]
  constructor
  · rintro ⟨-, t, vs, ht, hvs, -⟩
    exact ⟨⟨t, ht⟩, vs, hvs⟩
  · rintro ⟨⟨t, ht⟩, vs, hvs⟩
    exact ⟨_, t, vs, ht, hvs, rfl⟩

theorem Shape.Like.equal {t u : Shape} (h : t.Like u) : t.Equal u := (equal_iff_same h.left h.right).mpr h.same

theorem Shape.Like.of_equal {t u : Shape} (ht : t.Keyed) (hu : u.Keyed) (h : t.Equal u) : t.Like u :=
  ⟨ht, hu, (equal_iff_same ht hu).mp h⟩

theorem ObjectShape.Like.mem_keys_iff {o u : ObjectShape} (h : o.Like u) (k : String) :
    k ∈ o.keys ↔ k ∈ u.keys :=
  (Shape.equal_object_iff.mp h.equal).1 k

theorem ObjectShape.Like.orAnything {o u : ObjectShape} (h : o.Like u) : o.orAnything.Like u.orAnything := by
  have hempty : o.isEmpty = u.isEmpty := by
    have hlength := (ObjectShape.same_iff.mp h.same).1
    rw [Bool.eq_iff_iff, isEmpty_iff, isEmpty_iff, ← List.length_eq_zero_iff, hlength, List.length_eq_zero_iff]
  unfold ObjectShape.orAnything
  rw [hempty]
  split
  · exact .refl (.prim _)
  · exact h

/-- Alike objects join alike with the same others, if the shapes of each key do. -/
theorem ObjectShape.Like.joinWith_of_properties {o w : ObjectShape} {us : List ObjectShape} (h : o.Like w)
    (hjoin : ∀ k t v vs, (k, t) ∈ o.properties → (k, v) ∈ w.properties → t.Like v →
      shapesAt? k us = some vs → (t.join vs).Like (v.join vs)) : (o.joinWith us).Like (w.joinWith us) := by
  refine .of_equal (keyed_joinWith h.left us) (keyed_joinWith h.right us) (.object (fun k => ?_) ?_)
  · rw [mem_keys_joinWith, mem_keys_joinWith, h.mem_keys_iff]
  · intro k a b ha hb
    obtain ⟨t, vs, ht, hvs, rfl⟩ := mem_properties_joinWith.mp (mem_of_get? ha)
    obtain ⟨v, vs', hv, hvs', rfl⟩ := mem_properties_joinWith.mp (mem_of_get? hb)
    rw [hvs, Option.some.injEq] at hvs'
    subst hvs'
    have hget := get?_of_mem (Shape.keyed_object_iff.mp h.left).1 ht
    obtain ⟨v', hv', htv⟩ := h.exists_get? hget
    rw [get?_of_mem (Shape.keyed_object_iff.mp h.right).1 hv, Option.some.injEq] at hv'
    subst hv'
    exact (hjoin k t v vs ht hv htv hvs).equal

namespace Shape

variable {t u : Shape} {vs : List Shape}

theorem Like.wrap (h : t.Like u) (n : Nat) : (t.wrap n).Like (u.wrap n) := by
  induction n with
  | zero => exact h
  | succ n ih => exact ⟨.array ih.left, .array ih.right, ih.same⟩

theorem Like.joinAll_of_inner (h : t.Like u)
    (hinner : (t.joinInner (vs.map Shape.innermost)).Like (u.joinInner (vs.map Shape.innermost))) :
    (t.joinAll vs).Like (u.joinAll vs) := by
  rw [joinAll, joinAll, joinAround, joinAround, h.arrayDepth_eq]
  split
  · exact hinner.wrap _
  · exact .refl (.prim _)

theorem Like.join_of_inner (h : t.Like u) (hvs : ∀ v ∈ vs, v.Keyed)
    (hinner : (t.joinInner (vs.map Shape.innermost)).Like (u.joinInner (vs.map Shape.innermost))) :
    (t.join vs).Like (u.join vs) := by
  have hsame : vs.all (·.same t) = vs.all (·.same u) := by
    rw [Bool.eq_iff_iff, List.all_eq_true, List.all_eq_true]
    refine forall₂_congr fun v hv => ⟨fun hvt => ?_, fun hvu => ?_⟩
    · exact same_trans (hvs v hv) h.left h.right hvt h.same
    · exact same_trans (hvs v hv) h.right h.left hvu h.symm.same
  rw [join, join, hsame]
  split
  · exact h
  · exact h.joinAll_of_inner hinner

/-- What is inside the arrays of alike shapes joins alike with the same others. -/
theorem Like.joinInner (h : t.Like u) (hvs : ∀ v ∈ vs, v.Keyed) : (t.joinInner vs).Like (u.joinInner vs) := by
  induction t using Shape.induction generalizing u vs with
  | prim p =>
    cases h.equal
    exact .refl (keyed_joinInner h.left vs)
  | array e ih =>
    cases u with
    | prim q => cases h.equal
    | object w => cases h.equal
    | array f =>
      have hef : e.Like f := ⟨keyed_array_iff.mp h.left, keyed_array_iff.mp h.right, h.same⟩
      show (e.joinInner vs).Like (f.joinInner vs)
      exact ih hef hvs
  | object o ih =>
    cases u with
    | prim q => cases h.equal
    | array f => cases h.equal
    | object w =>
      rw [Shape.joinInner, Shape.joinInner]
      cases hos : allObjects? vs with
      | none => exact .refl (.prim _)
      | some os =>
        rw [allObjects?_eq_some_iff] at hos
        subst hos
        refine (ObjectShape.Like.joinWith_of_properties h fun k t v ts ht _ htv hts => ?_).orAnything
        have hts := keyed_of_shapesAt? (List.forall_mem_map.mp hvs) hts
        refine htv.join_of_inner hts (ih k t ht htv (List.forall_mem_map.mpr fun v hv => ?_))
        exact keyed_innermost_iff.mpr (hts v hv)

end Shape

/-! ### Unification of alike shapes -/

/-- Shapes that are alike one by one have alike joins. -/
theorem Shape.Like.joinAll {t u : Shape} {ts us : List Shape} (h : t.Like u) (hs : ts.Forall₂ Like us) :
    (t.joinAll ts).Like (u.joinAll us) := by
  have hts : ∀ v ∈ ts, v.Keyed := fun v hv =>
    let ⟨_, _, hlike⟩ := exists_right_of_forall₂ hs hv
    hlike.left
  have hothers : Matched Like (u :: ts) (u :: us) := .of_forall₂ (.cons (.refl h.right) hs)
  rw [← joinAll_congr hothers]
  refine h.joinAll_of_inner (h.joinInner (List.forall_mem_map.mpr fun v hv => ?_))
  exact keyed_innermost_iff.mpr (hts v hv)

/-- Objects that are alike one by one have alike joins. -/
theorem ObjectShape.Like.joinWith {o w : ObjectShape} {os us : List ObjectShape} (h : o.Like w)
    (hs : os.Forall₂ Like us) : (o.joinWith os).Like (w.joinWith us) := by
  have hos : ∀ v ∈ os, (Shape.object v).Keyed := fun v hv =>
    let ⟨_, _, hlike⟩ := exists_right_of_forall₂ hs hv
    hlike.left
  have hothers : Matched Like (w :: os) (w :: us) := .of_forall₂ (.cons (.refl h.right) hs)
  rw [← joinWith_congr hothers]
  refine h.joinWith_of_properties fun k t v vs _ _ htv hvs => ?_
  have hvs := Shape.keyed_of_shapesAt? hos hvs
  refine htv.join_of_inner hvs (htv.joinInner (List.forall_mem_map.mpr fun v hv => ?_))
  exact Shape.keyed_innermost_iff.mpr (hvs v hv)

/-- Members of lists that are equal one by one are alike. -/
theorem forall₂_like {ts us : List Shape} (hkeyed : ∀ t ∈ ts ++ us, t.Keyed) (h : ts.Forall₂ Shape.Equal us) :
    ts.Forall₂ Shape.Like us := by
  induction h with
  | nil => exact .nil
  | @cons t u ts us htu _ ih =>
    simp only [List.cons_append, List.forall_mem_cons, List.forall_mem_append] at hkeyed ih
    exact .cons (.of_equal hkeyed.1 hkeyed.2.2.1 htu) (ih ⟨hkeyed.2.1, hkeyed.2.2.2⟩)

theorem unifyShapes_equal {ts us : List Shape} (hkeyed : ∀ t ∈ ts ++ us, t.Keyed)
    (h : ts.Forall₂ Shape.Equal us) :
    ∃ t u, (unifyShapes ts).Yields (.ok t) ∧ (unifyShapes us).Yields (.ok u) ∧ t.Equal u := by
  cases forall₂_like hkeyed h with
  | nil => exact ⟨_, _, (Pass.yields_pure _).after_check, (Pass.yields_pure _).after_check, .prim _⟩
  | @cons t u ts us hlike hs =>
    exact ⟨_, _, unifyShapes_yields t ts, unifyShapes_yields u us, (hlike.joinAll hs).equal⟩

theorem unifyObjects_equal {os us : List ObjectShape} (hne : os ≠ [])
    (hkeyed : ∀ o ∈ os ++ us, (Shape.object o).Keyed)
    (h : os.Forall₂ (fun o u => (Shape.object o).Equal (.object u)) us) :
    ∃ o u, (unifyObjects os).Yields (.ok o) ∧ (unifyObjects us).Yields (.ok u) ∧
      (Shape.object o).Equal (.object u) := by
  have hlike : (os.map Shape.object).Forall₂ Shape.Like (us.map Shape.object) := by
    refine forall₂_like ?_ (List.forall₂_map_left_iff.mpr (List.forall₂_map_right_iff.mpr h))
    rw [← List.map_append]
    exact List.forall_mem_map.mpr hkeyed
  rw [List.forall₂_map_left_iff, List.forall₂_map_right_iff] at hlike
  cases hlike with
  | nil => exact absurd rfl hne
  | @cons o u os us hlike hs =>
    exact ⟨_, _, unifyObjects_yields o os, unifyObjects_yields u us,
      (ObjectShape.Like.joinWith hlike hs).equal⟩

/-- **Comparing by hash decides structural equality, and unification respects it.** Let keys, primitives and
tuples be hashed in any way, and sets in any way that does not depend on an order. On shapes in which no object
has a key twice, whichever of them are one object in memory, the comparison that looks at this and at hashes and
sizes first comes to the same end as the one without, and decides the relation `Shape.Equal`, for which names,
depths and orders do not count. The relation is an equivalence, and equal shapes have equal hashes. Unification
of shapes, and of objects, that are equal one by one ends in equal results. And of shapes that are put into a
dictionary one after another, the first of each class stay, in order, which are the distinct ones of which an
array's element shape is made. -/
theorem equals_iff_equal {H : Type} [DecidableEq H] (h : Hashing H) :
    (∀ (shared : Sharing) (path : List String) (t u : Shape), t.Keyed → u.Keyed →
      t.equals h shared path u = t.same u ∧ (t.equals h shared path u = true ↔ t.Equal u)) ∧
    (Equivalence fun t u : { t : Shape // t.Keyed } => t.1.Equal u.1) ∧
    (∀ t u : Shape, t.Keyed → u.Keyed → t.Equal u → t.hash h = u.hash h) ∧
    (∀ ts us : List Shape, (∀ t ∈ ts ++ us, t.Keyed) → ts.Forall₂ Shape.Equal us →
      ∃ t u, (unifyShapes ts).Yields (.ok t) ∧ (unifyShapes us).Yields (.ok u) ∧ t.Equal u) ∧
    (∀ os us : List ObjectShape, os ≠ [] → (∀ o ∈ os ++ us, (Shape.object o).Keyed) →
      os.Forall₂ (fun o u => (Shape.object o).Equal (.object u)) us →
      ∃ o u, (unifyObjects os).Yields (.ok o) ∧ (unifyObjects us).Yields (.ok u) ∧
        (Shape.object o).Equal (.object u)) ∧
    ∀ (shared : Nat → Sharing) (ts : List Shape), (∀ t ∈ ts, t.Keyed) →
      dictionaryKeys h shared ts = firstOfEachClass ts ∧ dictionaryKeys h shared ts = distinct ts := by
  refine ⟨fun shared path t u ht hu => ?_, Shape.equivalence_equal, fun t u ht hu hequal => hequal.hash_eq ht hu,
    fun ts us => unifyShapes_equal, fun os us => unifyObjects_equal, fun shared ts hts => ?_⟩
  · have hsame : t.equals h shared path u = t.same u := Shape.equals_eq_same ht hu
    exact ⟨hsame, hsame ▸ (Shape.equal_iff_same ht hu).symm⟩
  · have hdistinct : dictionaryKeys h shared ts = distinct ts := dictionaryKeys_eq_distinct hts
    exact ⟨hdistinct.trans (distinct_eq_firstOfEachClass hts), hdistinct⟩

/-- Two objects with the same properties in different orders, under different names and at different depths, and
an object with a wider shape for one key; the hash takes many shapes for one. -/
theorem equals_iff_equal_reordered :
    let h : Hashing Nat := {
      key := String.length
      kind := Primitive.rank
      tuple := fun hashes => hashes.foldl (fun n m => 31 * n + m) 7
      set := List.sum
      set_eq_of_perm := List.Perm.sum_nat }
    let shared : Sharing := { identical := fun _ _ _ => false, eq_of_identical := fun h => absurd h Bool.false_ne_true }
    let first : ObjectShape := ⟨"P", 1, [("a", .prim .integer),
      ("b", .array (.object ⟨"BElement", 2, [("x", .prim .string), ("y", .anything)]⟩))]⟩
    let second : ObjectShape := ⟨"Q", 4, [
      ("b", .array (.object ⟨"BElement", 5, [("y", .anything), ("x", .prim .string)]⟩)),
      ("a", .prim .integer)]⟩
    let third : ObjectShape := ⟨"R", 0, [("a", .prim .float), ("b", .array (.prim .string))]⟩
    (Shape.object first).equals h shared [] (.object second) = true ∧
      (Shape.object first).hash h = (Shape.object second).hash h ∧
      (∃ o u, (unifyObjects [first, third]).Yields (.ok o) ∧ (unifyObjects [second, third]).Yields (.ok u) ∧
        (Shape.object o).Equal (.object u)) ∧
      (∃ t u, (unifyShapes [.object first, .object third]).Yields (.ok t) ∧
        (unifyShapes [.object second, .object third]).Yields (.ok u) ∧ t.Equal u) ∧
      dictionaryKeys h (fun _ => shared) [.object first, .object third, .object second] =
        [.object first, .object third] := by
  intro h shared first second third
  obtain ⟨hcompare, hequivalence, hhash, hshapes, hobjects, hdictionary⟩ := equals_iff_equal h
  have hkeyed : ∀ t ∈ [Shape.object first, .object third, .object second], t.Keyed := by
    simp only [List.forall_mem_cons, List.not_mem_nil, false_imp_iff, implies_true, and_true,
      ObjectShape.keyed_iff, Shape.keyed_array_iff, Shape.Keyed.prim, first, second, third]
    decide
  have hfirst := hkeyed (.object first) (by simp)
  have hsecond := hkeyed (.object second) (by simp)
  have hthird := hkeyed (.object third) (by simp)
  have hequals : (Shape.object first).equals h shared [] (.object second) = true := by decide
  have hequal := (hcompare shared [] _ _ hfirst hsecond).2.mp hequals
  have hsame := hequivalence.refl ⟨_, hthird⟩
  have hall : ∀ o ∈ [first, third] ++ [second, third], (Shape.object o).Keyed := by
    simp [hfirst, hsecond, hthird]
  refine ⟨hequals, hhash _ _ hfirst hsecond hequal, ?_, ?_, ?_⟩
  · exact hobjects _ _ (by simp) hall (.cons hequal (.cons hsame .nil))
  · refine hshapes _ _ (fun t ht => ?_) (.cons hequal (.cons hsame .nil))
    simp only [List.cons_append, List.nil_append, List.mem_cons, List.not_mem_nil, or_false] at ht
    rcases ht with rfl | rfl | rfl | rfl <;> assumption
  · rw [(hdictionary (fun _ => shared) _ hkeyed).2]
    rfl

end JsonShape
