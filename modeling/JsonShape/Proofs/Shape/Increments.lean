import JsonShape.Proofs.Shape.Registry

/-!
# Unifying in increments

Objects may be unified all at once, as the elements of an array are, or one at a time, as those of a scope
are when they are registered under one name. Both ways end in one object: the same name and depth, the same
properties in the same order, and the same shapes below them. This is more than least upper bounds give, which
are unique up to structural equality only.
-/

namespace JsonShape

/-- Objects of one name stand for their join under it. -/
theorem settled?_of_name {o : ObjectShape} {us : List ObjectShape} {name : String}
    (hkeyed : ∀ u ∈ o :: us, (Shape.object u).Keyed) (hname : ∀ u ∈ o :: us, u.name = name) :
    settled? (o :: us) name = if (o.joinWith us).isEmpty then none else some (o.joinWith us) := by
  have hfilter : (o :: us).filter (·.name = name) = o :: us :=
    List.filter_eq_self.mpr fun u hu => by simpa using hname u hu
  rw [settled?_eq hkeyed, hfilter]

/-- **Unification in increments is unification at once.** What some objects are unified to, unified with
further ones, is exactly what all of them are unified to; unified again with some of its own it stays exactly
what it is. And it is what a registry has under a name when all of them have been registered one after another
under it; where nothing is left of them, the registry has nothing. -/
theorem unifyObjects_append {xs ys : List ObjectShape} (hne : xs ≠ [])
    (hkeyed : ∀ o ∈ xs ++ ys, (Shape.object o).Keyed) :
    ∃ j m, (unifyObjects xs).Yields (.ok j) ∧ (unifyObjects (xs ++ ys)).Yields (.ok m) ∧
      (unifyObjects (j :: ys)).Yields (.ok m) ∧
      (∀ ws, (∀ w ∈ ws, w ∈ xs) → (unifyObjects (j :: ws)).Yields (.ok j)) ∧
      ∀ name, (∀ o ∈ xs ++ ys, o.name = name ∧ o.isEmpty = false) →
        ∃ r, (Registry.registerAll (xs ++ ys)).Yields (.ok r) ∧
          r.get? name = if m.isEmpty then none else some m := by
  obtain ⟨o, us, rfl⟩ := List.exists_cons_of_ne_nil hne
  have hall := hkeyed
  rw [List.cons_append, List.forall_mem_cons, List.forall_mem_append] at hkeyed
  obtain ⟨ho, hus, hys⟩ := hkeyed
  refine ⟨o.joinWith us, o.joinWith (us ++ ys), unifyObjects_yields o us, unifyObjects_yields o (us ++ ys),
    ?_, fun ws hws => ?_, fun name hname => ?_⟩
  · rw [← ObjectShape.joinWith_joinWith ho hus hys]
    exact unifyObjects_yields _ ys
  · have h := unifyObjects_yields (o.joinWith us) ws
    rwa [ObjectShape.joinWith_joinWith_of_mem ho hus hws] at h
  · obtain ⟨r, hr, hreflects⟩ :=
      Registry.registerAll_yields fun u hu => ⟨hall u hu, (hname u hu).2⟩
    refine ⟨r, hr, ?_⟩
    rw [hreflects.get?]
    exact settled?_of_name hall fun u hu => (hname u hu).1

/-- Three objects of one name: the first two widen one property and lose what is inside another, and the third
gives back what was lost and widens a third property. -/
theorem unifyObjects_append_lost :
    let first : ObjectShape := ⟨"P", 1, [("a", .prim .integer), ("b", .object ⟨"B", 2, [("x", .prim .string)]⟩),
      ("c", .array (.prim .integer)), ("d", .anything)]⟩
    let second : ObjectShape := ⟨"P", 1, [("c", .array (.prim .integer)), ("a", .prim .longInteger),
      ("b", .object ⟨"B", 2, [("y", .prim .string)]⟩)]⟩
    let third : ObjectShape := ⟨"P", 1, [("b", .object ⟨"B", 2, [("x", .prim .string)]⟩), ("a", .prim .integer),
      ("c", .array (.prim .float)), ("d", .anything)]⟩
    let joined : ObjectShape := ⟨"P", 1, [("a", .prim .longInteger), ("b", .anything),
      ("c", .array (.prim .integer))]⟩
    let all : ObjectShape := ⟨"P", 1, [("a", .prim .longInteger), ("b", .anything),
      ("c", .array (.prim .float))]⟩
    (unifyObjects [first, second]).Yields (.ok joined) ∧ (unifyObjects [joined, third]).Yields (.ok all) ∧
      (unifyObjects [first, second, third]).Yields (.ok all) ∧
      (unifyObjects [joined, second, first]).Yields (.ok joined) ∧
      ∃ r, (Registry.registerAll [first, second, third]).Yields (.ok r) ∧ r.get? "P" = some all := by
  intro first second third joined all
  have hkeyed : ∀ o ∈ [first, second] ++ [third], (Shape.object o).Keyed := by
    simp only [List.cons_append, List.nil_append, List.forall_mem_cons, List.not_mem_nil, false_imp_iff,
      implies_true, and_true, ObjectShape.keyed_iff, Shape.keyed_array_iff, Shape.Keyed.prim,
      first, second, third]
    decide
  obtain ⟨j, m, hj, hm, hstep, hagain, hregistry⟩ := unifyObjects_append (by simp) hkeyed
  have ej : Except.ok joined = Except.ok j := hj.run_none {}
  have em : Except.ok all = Except.ok m := hm.run_none {}
  cases ej
  cases em
  obtain ⟨r, hr, hget⟩ := hregistry "P" (by simp [first, second, third, ObjectShape.isEmpty])
  exact ⟨hj, hstep, hm, hagain [second, first] (by simp), r, hr, hget⟩

end JsonShape
