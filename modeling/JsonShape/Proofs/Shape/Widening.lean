import JsonShape.Shape.Unify
import JsonShape.Proofs.Shape.Structure
import Mathlib.Order.Lattice

/-!
# Widening

The order in which shapes widen. `t ≤ u` says that `u` is `t` made wider: everything widens to the shape
that accepts anything; otherwise both are in as many arrays, and what is inside widens, primitives from
integer over long integer to float, objects by losing keys and by wider shapes for the keys that stay.
Names and depths play no part, nor does the order of properties, so this is a preorder.
-/

namespace JsonShape

/-! ### Primitives -/

/-- A primitive widens to itself, to anything, and a number to one of no smaller rank. -/
instance : LE Primitive where
  le p q := p = q ∨ q = .anything ∨ (p.isNumeric ∧ q.isNumeric ∧ p.rank ≤ q.rank)

instance (p q : Primitive) : Decidable (p ≤ q) :=
  inferInstanceAs (Decidable (_ ∨ _ ∨ _))

/-- The primitives are a semilattice under their join. -/
instance : SemilatticeSup Primitive where
  sup := Primitive.join
  le_refl p := .inl rfl
  le_trans p q r := by cases p <;> cases q <;> cases r <;> decide
  le_antisymm p q := by cases p <;> cases q <;> decide
  le_sup_left p q := by cases p <;> cases q <;> decide
  le_sup_right p q := by cases p <;> cases q <;> decide
  sup_le p q r := by cases p <;> cases q <;> cases r <;> decide

theorem Primitive.le_anything (p : Primitive) : p ≤ .anything := .inr (.inl rfl)

theorem Primitive.anything_le_iff {p : Primitive} : .anything ≤ p ↔ p = .anything := by
  cases p <;> decide

/-- The primitive that joins others to a first is the least one above all of them. -/
theorem Primitive.foldl_join_le_iff (ts : List Shape) (p q : Primitive) :
    ts.foldl (fun r u => r.join u.toPrimitive) p ≤ q ↔ p ≤ q ∧ ∀ t ∈ ts, t.toPrimitive ≤ q := by
  induction ts generalizing p with
  | nil => simp
  | cons t rest ih =>
    rw [List.foldl_cons, ih, show p.join t.toPrimitive = p ⊔ t.toPrimitive from rfl, sup_le_iff,
      List.forall_mem_cons, and_assoc]

/-! ### Shapes -/

/-- The shape `u` is the shape `t` made wider. -/
inductive Shape.Widens : Shape → Shape → Prop
  /-- Everything widens to the shape that accepts anything. -/
  | anything (t : Shape) : Widens t .anything
  /-- Inside arrays too, everything widens to what accepts anything. -/
  | inside {t u : Shape} : t.arrayDepth = u.arrayDepth → u.innermost = .anything → Widens t u
  /-- In equally many arrays, primitives widen in their order. -/
  | prim {t u : Shape} {p q : Primitive} : t.arrayDepth = u.arrayDepth →
      t.innermost = .prim p → u.innermost = .prim q → p ≤ q → Widens t u
  /-- In equally many arrays, an object widens to one whose keys it has, with wider shapes. -/
  | object {t u : Shape} {r s : ObjectShape} : t.arrayDepth = u.arrayDepth →
      t.innermost = .object r → u.innermost = .object s → (∀ k ∈ s.keys, k ∈ r.keys) →
      (∀ k v w, r.get? k = some v → s.get? k = some w → Widens v w) → Widens t u

/-- Arrays widen with their elements. -/
theorem Shape.Widens.array {e f : Shape} (h : e.Widens f) (hd : e.arrayDepth = f.arrayDepth) :
    (Shape.array e).Widens (.array f) := by
  have hd' : (Shape.array e).arrayDepth = (Shape.array f).arrayDepth := congrArg (· + 1) hd
  cases h with
  | anything => exact .inside hd' rfl
  | inside _ hu => exact .inside hd' hu
  | prim _ ht hu hpq => exact .prim hd' ht hu hpq
  | object _ ht hu hk hv => exact .object hd' ht hu hk hv

theorem Shape.Widens.refl (t : Shape) : t.Widens t := by
  induction t using Shape.induction with
  | prim p => exact .prim rfl rfl rfl le_rfl
  | array e ih => exact ih.array rfl
  | object o ih =>
    refine .object rfl rfl rfl (fun _ h => h) fun k v w hv hw => ?_
    rw [hv, Option.some.injEq] at hw
    exact hw ▸ ih k v (ObjectShape.mem_of_get? hv)

/-- What is wider than the shape that accepts anything is that shape, in as many arrays. -/
theorem Shape.Widens.of_anything {u w : Shape} (h : u.Widens w) (hu : u.innermost = .anything) :
    w = .anything ∨ u.arrayDepth = w.arrayDepth ∧ w.innermost = .anything := by
  cases h with
  | anything => exact .inl rfl
  | inside hd hw => exact .inr ⟨hd, hw⟩
  | prim hd ht hw hpq =>
    rw [hu, Shape.prim.injEq] at ht
    subst ht
    rw [Primitive.anything_le_iff.mp hpq] at hw
    exact .inr ⟨hd, hw⟩
  | object _ ht => rw [hu] at ht; cases ht

theorem Shape.Widens.trans {t u w : Shape} (h : t.Widens u) (h' : u.Widens w) : t.Widens w := by
  induction h generalizing w with
  | anything t =>
    rcases h'.of_anything rfl with rfl | ⟨hd, hw⟩
    · exact .anything t
    · rw [eq_innermost_of_arrayDepth hd.symm, hw]; exact .anything t
  | inside hd hu =>
    rcases h'.of_anything hu with rfl | ⟨hd', hw⟩
    · exact .anything _
    · exact .inside (hd.trans hd') hw
  | prim hd ht hu hpq =>
    cases h' with
    | anything => exact .anything _
    | inside hd' hw => exact .inside (hd.trans hd') hw
    | prim hd' hu' hw hqr =>
      rw [hu, Shape.prim.injEq] at hu'
      subst hu'
      exact .prim (hd.trans hd') ht hw (hpq.trans hqr)
    | object _ hu' => rw [hu] at hu'; cases hu'
  | object hd ht hu hk _ ih =>
    cases h' with
    | anything => exact .anything _
    | inside hd' hw => exact .inside (hd.trans hd') hw
    | prim _ hu' => rw [hu] at hu'; cases hu'
    | object hd' hu' hw hk' hv' =>
      rw [hu, Shape.object.injEq] at hu'
      subst hu'
      refine .object (hd.trans hd') ht hw (fun k h => hk k (hk' k h)) fun k v x hv hx => ?_
      -- the middle object has the key too, since the last one has it
      obtain ⟨y, hy⟩ := ObjectShape.exists_get?_of_mem_keys
        (hk' k (ObjectShape.mem_keys_of_get? hx))
      exact ih k v y hv hy (hv' k y x hy hx)

/-- Shapes are ordered by widening. -/
instance : Preorder Shape where
  le := Shape.Widens
  le_refl := .refl
  le_trans _ _ _ := .trans

/-- Object shapes are ordered as shapes. -/
instance : Preorder ObjectShape := Preorder.lift Shape.object

namespace Shape

theorem le_anything (t : Shape) : t ≤ .anything := .anything t

theorem anything_le_iff {u : Shape} : .anything ≤ u ↔ u = .anything := by
  refine ⟨fun h => ?_, fun h => h ▸ le_rfl⟩
  rcases Widens.of_anything h rfl with rfl | ⟨hd, hu⟩
  · rfl
  · rw [eq_innermost_of_arrayDepth hd.symm, hu]

theorem prim_le_prim_iff {p q : Primitive} : Shape.prim p ≤ .prim q ↔ p ≤ q := by
  refine ⟨fun h => ?_, fun h => .prim rfl rfl rfl h⟩
  cases h with
  | anything => exact p.le_anything
  | inside _ hu => cases hu; exact p.le_anything
  | prim _ ht hu hpq => cases ht; cases hu; exact hpq
  | object _ ht => cases ht

/-- The only primitive above an object is the one that accepts anything. -/
theorem object_le_prim_iff {o : ObjectShape} {q : Primitive} :
    Shape.object o ≤ .prim q ↔ q = .anything := by
  refine ⟨fun h => ?_, fun h => h ▸ le_anything _⟩
  cases h with
  | anything => rfl
  | inside _ hu => cases hu; rfl
  | prim _ ht => cases ht
  | object _ _ hu => cases hu

theorem not_prim_le_object {p : Primitive} {o : ObjectShape} : ¬Shape.prim p ≤ .object o := by
  intro h
  cases h with
  | inside _ hu => cases hu
  | prim _ _ hu => cases hu
  | object _ ht => cases ht

end Shape

theorem ObjectShape.le_iff {r s : ObjectShape} : r ≤ s ↔ (∀ k ∈ s.keys, k ∈ r.keys) ∧
    ∀ k v w, r.get? k = some v → s.get? k = some w → v ≤ w := by
  refine ⟨fun h => ?_, fun ⟨hk, hv⟩ => Shape.Widens.object rfl rfl rfl hk hv⟩
  cases (h : Shape.Widens (.object r) (.object s)) with
  | inside _ hu => cases hu
  | prim _ ht => cases ht
  | object _ ht hu hk hv => cases ht; cases hu; exact ⟨hk, hv⟩

/-- An empty object is only below empty ones. -/
theorem ObjectShape.isEmpty_of_le {r s : ObjectShape} (h : r ≤ s) (hr : r.isEmpty = true) :
    s.isEmpty = true := by
  refine isEmpty_iff.mpr (List.eq_nil_iff_forall_not_mem.mpr fun ⟨k, t⟩ hk => ?_)
  obtain ⟨v, hv⟩ := mem_keys.mp ((le_iff.mp h).1 k (mem_keys.mpr ⟨t, hk⟩))
  rw [isEmpty_iff.mp hr] at hv
  cases hv

/-- A shape widens to another if that one accepts anything, or if both are in equally many arrays and
what is inside widens. -/
theorem Shape.le_iff_innermost {t u : Shape} :
    t ≤ u ↔ u = .anything ∨ t.arrayDepth = u.arrayDepth ∧ t.innermost ≤ u.innermost := by
  constructor
  · intro h
    cases h with
    | anything => exact .inl rfl
    | inside hd hu => exact .inr ⟨hd, hu ▸ le_anything _⟩
    | prim hd ht hu hpq => exact .inr ⟨hd, by rw [ht, hu, prim_le_prim_iff]; exact hpq⟩
    | object hd ht hu hk hv => exact .inr ⟨hd, by rw [ht, hu]; exact .object rfl rfl rfl hk hv⟩
  · rintro (rfl | ⟨hd, h⟩)
    · exact le_anything t
    · rcases t.innermost_cases with ⟨p, ht⟩ | ⟨r, ht⟩ <;>
        rcases u.innermost_cases with ⟨q, hu⟩ | ⟨s, hu⟩ <;> rw [ht, hu] at h
      · exact .prim hd ht hu (prim_le_prim_iff.mp h)
      · exact absurd h not_prim_le_object
      · exact .inside hd (by rw [hu, object_le_prim_iff.mp h])
      · obtain ⟨hk, hv⟩ := ObjectShape.le_iff.mp h
        exact .object hd ht hu hk hv

theorem Shape.innermost_le_innermost {t u : Shape} (h : t ≤ u) : t.innermost ≤ u.innermost := by
  rcases le_iff_innermost.mp h with rfl | ⟨-, hi⟩
  · exact le_anything _
  · exact hi

end JsonShape
