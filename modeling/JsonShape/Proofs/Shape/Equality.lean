import JsonShape.Proofs.Shape.Widening
import Mathlib.Data.List.Perm.Subperm

/-!
# Structural equality and widening

On shapes in which no object has a key twice, `Shape.same` is the equivalence that comes with the order
of widening: two shapes are structurally equal if each is the other made wider. So it is reflexive,
symmetric and transitive, and whatever respects the order respects it.
-/

namespace JsonShape

theorem ObjectShape.same_iff {o u : ObjectShape} : o.same u = true ↔
    o.properties.length = u.properties.length ∧
      ∀ k t, (k, t) ∈ o.properties → ∃ v, u.get? k = some v ∧ t.same v = true := by
  obtain ⟨name, depth, properties⟩ := o
  have each : ∀ ps : List (String × Shape), propertiesSame ps u = true ↔
      ∀ k t, (k, t) ∈ ps → ∃ v, u.get? k = some v ∧ t.same v = true := by
    intro ps
    induction ps with
    | nil => simp [propertiesSame]
    | cons p rest ih =>
      obtain ⟨k, t⟩ := p
      cases hv : u.get? k with
      | none =>
        simp only [propertiesSame, hv, Bool.false_and, Bool.false_eq_true, false_iff]
        intro h
        obtain ⟨v, hv', -⟩ := h k t (List.mem_cons_self ..)
        rw [hv] at hv'; cases hv'
      | some v =>
        simp only [propertiesSame, hv, Bool.and_eq_true, ih, List.mem_cons, Prod.mk.injEq]
        constructor
        · rintro ⟨h, hr⟩ k' t' (⟨rfl, rfl⟩ | hm)
          · exact ⟨v, hv, h⟩
          · exact hr k' t' hm
        · intro h
          obtain ⟨v', hv', h'⟩ := h k t (.inl ⟨rfl, rfl⟩)
          rw [hv, Option.some.injEq] at hv'
          exact ⟨hv' ▸ h', fun k' t' hm => h k' t' (.inr hm)⟩
  rw [ObjectShape.same, Bool.and_eq_true, beq_iff_eq, each]

/-- Equal objects have the same keys: the second has as many as the first, none twice, and so none beyond
those of the first. -/
theorem ObjectShape.keys_perm_of_same {o u : ObjectShape} (ho : o.keys.Nodup) (h : o.same u = true) :
    o.keys.Perm u.keys := by
  obtain ⟨hlen, hsame⟩ := same_iff.mp h
  have hsub : o.keys ⊆ u.keys := fun k hk => by
    obtain ⟨t, ht⟩ := mem_keys.mp hk
    obtain ⟨v, hv, -⟩ := hsame k t ht
    exact mem_keys_of_get? hv
  exact (List.Nodup.subperm ho hsub).perm_of_length_le (by simp [keys, hlen])

namespace Shape

/-- Shapes are equal if they are in equally many arrays and what is inside is equal. -/
theorem same_iff_innermost {t u : Shape} :
    t.same u = true ↔ t.arrayDepth = u.arrayDepth ∧ t.innermost.same u.innermost = true := by
  induction t using Shape.induction generalizing u with
  | array e ih =>
    cases u with
    | array f => simp only [Shape.same, arrayDepth, innermost, ih, Nat.add_right_cancel_iff]
    | prim q => simp [Shape.same, arrayDepth]
    | object s => simp [Shape.same, arrayDepth]
  | prim p => cases u <;> simp [Shape.same, arrayDepth, innermost]
  | object o => cases u <;> simp [Shape.same, arrayDepth, innermost]

/-- A shape equal to one around an object is around an object too. -/
theorem exists_innerObject?_of_same {t v : Shape} {o : ObjectShape} (h : v.same t = true)
    (ho : t.innerObject? = some o) : ∃ u, v.innerObject? = some u ∧ u.same o = true := by
  obtain ⟨-, hi⟩ := same_iff_innermost.mp h
  rw [innerObject?_eq_some_iff.mp ho] at hi
  rcases v.innermost_cases with ⟨p, hp⟩ | ⟨u, hu⟩
  · rw [hp] at hi
    cases hi
  · rw [hu] at hi
    exact ⟨u, innerObject?_eq_some_iff.mpr hu, hi⟩

/-- Equal shapes widen to each other. -/
theorem le_and_ge_of_same {t u : Shape} (ht : t.Keyed) (hu : u.Keyed) (h : t.same u = true) :
    t ≤ u ∧ u ≤ t := by
  induction t using Shape.induction generalizing u with
  | prim p =>
    cases u with
    | prim q => simp only [Shape.same, decide_eq_true_eq] at h; subst h; exact ⟨le_rfl, le_rfl⟩
    | array f => simp [Shape.same] at h
    | object s => simp [Shape.same] at h
  | array e ih =>
    cases u with
    | array f =>
      rw [Shape.same] at h
      have hd := (same_iff_innermost.mp h).1
      obtain ⟨h₁, h₂⟩ := ih (keyed_array_iff.mp ht) (keyed_array_iff.mp hu) h
      exact ⟨Widens.array h₁ hd, Widens.array h₂ hd.symm⟩
    | prim q => simp [Shape.same] at h
    | object s => simp [Shape.same] at h
  | object r ih =>
    cases u with
    | object s =>
      rw [Shape.same] at h
      obtain ⟨hrk, hrp⟩ := keyed_object_iff.mp ht
      obtain ⟨hsk, hsp⟩ := keyed_object_iff.mp hu
      have hperm := ObjectShape.keys_perm_of_same hrk h
      obtain ⟨-, hsame⟩ := ObjectShape.same_iff.mp h
      have hval : ∀ k v w, r.get? k = some v → s.get? k = some w → v ≤ w ∧ w ≤ v := by
        intro k v w hv hw
        obtain ⟨w', hw', hvw⟩ := hsame k v (ObjectShape.mem_of_get? hv)
        rw [hw, Option.some.injEq] at hw'
        subst hw'
        exact ih k v (ObjectShape.mem_of_get? hv) (hrp k v (ObjectShape.mem_of_get? hv))
          (hsp k w (ObjectShape.mem_of_get? hw)) hvw
      exact ⟨ObjectShape.le_iff.mpr ⟨fun k => hperm.mem_iff.mpr, fun k v w hv hw => (hval k v w hv hw).1⟩,
        ObjectShape.le_iff.mpr ⟨fun k => hperm.mem_iff.mp, fun k w v hw hv => (hval k v w hv hw).2⟩⟩
    | prim q => simp [Shape.same] at h
    | array f => simp [Shape.same] at h

/-- Shapes that widen to each other are equal. -/
theorem same_of_le_of_ge {t u : Shape} (ht : t.Keyed) (hu : u.Keyed) (h : t ≤ u) (h' : u ≤ t) :
    t.same u = true := by
  induction (h : t.Widens u) with
  | anything t => rw [anything_le_iff.mp h']; rfl
  | inside hd hu' =>
    have hi := innermost_le_innermost h'
    rw [hu', anything_le_iff] at hi
    rw [same_iff_innermost, hi, hu']
    exact ⟨hd, rfl⟩
  | prim hd ht' hu' hpq =>
    have hi := innermost_le_innermost h'
    rw [ht', hu', prim_le_prim_iff] at hi
    rw [same_iff_innermost, ht', hu', le_antisymm hpq hi]
    exact ⟨hd, by simp [Shape.same]⟩
  | @object t u r s hd ht' hu' hk _ ih =>
    have hi := innermost_le_innermost h'
    rw [ht', hu'] at hi
    obtain ⟨hk', hv'⟩ := ObjectShape.le_iff.mp hi
    obtain ⟨hrk, hrp⟩ := keyed_object_iff.mp (ht' ▸ keyed_innermost_iff.mpr ht)
    obtain ⟨hsk, hsp⟩ := keyed_object_iff.mp (hu' ▸ keyed_innermost_iff.mpr hu)
    have hperm : r.keys.Perm s.keys := (List.perm_ext_iff_of_nodup hrk hsk).mpr fun k => ⟨hk' k, hk k⟩
    rw [same_iff_innermost, ht', hu', Shape.same, ObjectShape.same_iff]
    refine ⟨hd, by simpa [ObjectShape.keys] using hperm.length_eq, fun k v hv => ?_⟩
    obtain ⟨w, hw⟩ := ObjectShape.exists_get?_of_mem_keys
      (hperm.mem_iff.mp (ObjectShape.mem_keys.mpr ⟨v, hv⟩))
    have hv := ObjectShape.get?_of_mem hrk hv
    exact ⟨w, hw, ih k v w hv hw (hrp k v (ObjectShape.mem_of_get? hv))
      (hsp k w (ObjectShape.mem_of_get? hw)) (hv' k w v hw hv)⟩

/-- Structural equality is widening both ways. -/
theorem same_iff {t u : Shape} (ht : t.Keyed) (hu : u.Keyed) :
    t.same u = true ↔ t ≤ u ∧ u ≤ t :=
  ⟨le_and_ge_of_same ht hu, fun ⟨h, h'⟩ => same_of_le_of_ge ht hu h h'⟩

theorem same_refl {t : Shape} (ht : t.Keyed) : t.same t = true :=
  (same_iff ht ht).mpr ⟨le_rfl, le_rfl⟩

theorem same_symm {t u : Shape} (ht : t.Keyed) (hu : u.Keyed) (h : t.same u = true) :
    u.same t = true :=
  (same_iff hu ht).mpr ((same_iff ht hu).mp h).symm

theorem same_trans {t u v : Shape} (ht : t.Keyed) (hu : u.Keyed) (hv : v.Keyed)
    (h : t.same u = true) (h' : u.same v = true) : t.same v = true := by
  obtain ⟨h₁, h₂⟩ := (same_iff ht hu).mp h
  obtain ⟨h₃, h₄⟩ := (same_iff hu hv).mp h'
  exact (same_iff ht hv).mpr ⟨h₁.trans h₃, h₄.trans h₂⟩

end Shape

/-! ### The distinct shapes of a list -/

theorem mem_of_mem_distinct {ts : List Shape} {t : Shape} (h : t ∈ distinct ts) : t ∈ ts := by
  induction ts with
  | nil => exact h
  | cons u rest ih =>
    rw [distinct, List.mem_cons] at h
    rcases h with rfl | h
    · exact List.mem_cons_self ..
    · exact List.mem_cons_of_mem _ (ih (List.mem_filter.mp h).1)

/-- Every shape of a list is equal to one of its distinct shapes. -/
theorem exists_distinct_same {ts : List Shape} (hts : ∀ t ∈ ts, t.Keyed) {t : Shape} (h : t ∈ ts) :
    ∃ d ∈ distinct ts, d.same t = true := by
  induction ts with
  | nil => cases h
  | cons u rest ih =>
    rw [List.forall_mem_cons] at hts
    rw [distinct]
    rcases List.mem_cons.mp h with rfl | h
    · exact ⟨t, List.mem_cons_self .., Shape.same_refl hts.1⟩
    · obtain ⟨d, hd, hdt⟩ := ih hts.2 h
      by_cases hud : u.same d = true
      · exact ⟨u, List.mem_cons_self ..,
          Shape.same_trans hts.1 (hts.2 d (mem_of_mem_distinct hd)) (hts.2 t h) hud hdt⟩
      · exact ⟨d, List.mem_cons_of_mem _ (List.mem_filter.mpr ⟨hd, by simp [hud]⟩), hdt⟩

end JsonShape
