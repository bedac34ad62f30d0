import JsonShape.Shape.Builder
import JsonShape.Proofs.Shape.LeastUpperBound

/-!
# The elements of an array

What the element shape of an array is among the shapes of its items. It is their least upper bound
where no item is in an array itself, and where all items have equal shapes; items of unequal shapes some
of which are arrays have nothing in common but that anything accepts them.
-/

namespace JsonShape

/-- The element shape that an array gets from the shapes of its items. -/
def joinElements (ts : List Shape) : Shape :=
  match distinct ts with
  | [] => .anything
  | [t] => t
  | .array _ :: _ => .anything
  | t :: rest => t.joinInner rest

theorem elementShape_yields (ts : List Shape) : (elementShape ts).Yields (.ok (joinElements ts)) := by
  unfold elementShape joinElements
  cases distinct ts with
  | nil => exact Pass.yields_pure _
  | cons t rest =>
    cases rest with
    | nil => exact Pass.yields_pure _
    | cons u us =>
      cases t with
      | prim p => exact (Pass.yields_ofExcept (scalarMinimum (.prim p :: u :: us))).map Shape.prim
      | array e =>
        simp only [allObjects?_eq_none (List.mem_cons_self ..) (show (Shape.array e).toObject? = none from rfl),
          scalarMinimum_cons_of_anything (show (Shape.array e).toPrimitive = .anything from rfl)]
        exact (Pass.yields_ofExcept (.ok Primitive.anything)).map Shape.prim
      | object o =>
        simp only [allObjects?_object_cons, Shape.joinInner]
        cases allObjects? (u :: us) with
        | some os => exact (unifyObjects_yields o os).map ObjectShape.orAnything
        | none =>
          simp only [Option.map_none,
            scalarMinimum_cons_of_anything (show (Shape.object o).toPrimitive = .anything from rfl)]
          exact (Pass.yields_ofExcept (.ok Primitive.anything)).map Shape.prim

/-! ### Distinct shapes -/

/-- No two of the distinct shapes of a list are equal. -/
theorem pairwise_distinct (ts : List Shape) : (distinct ts).Pairwise fun t u => ¬t.same u = true := by
  induction ts with
  | nil => exact .nil
  | cons t rest ih =>
    rw [distinct, List.pairwise_cons]
    exact ⟨fun u hu => by simpa using (List.mem_filter.mp hu).2, ih.filter _⟩

theorem distinct_ne_nil {ts : List Shape} (h : ts ≠ []) : distinct ts ≠ [] := by
  cases ts with
  | nil => exact absurd rfl h
  | cons t rest => simp [distinct]

/-- The distinct shapes of a list have the joins that the list has. -/
theorem isJoin_of_distinct {ts : List Shape} {m : Shape} (hts : ∀ t ∈ ts, t.Proper)
    (h : m.IsJoin (distinct ts)) : m.IsJoin ts := by
  refine .intro h.proper ?_ ?_
  · intro t ht
    obtain ⟨d, hd, hsame⟩ := exists_distinct_same (fun u hu => (hts u hu).keyed) ht
    have hk := (hts d (mem_of_mem_distinct hd)).keyed
    exact (Shape.le_and_ge_of_same hk (hts t ht).keyed hsame).2.trans (h.le hd)
  · intro w hw hle
    exact h.least hw fun d hd => hle d (mem_of_mem_distinct hd)

/-! ### The element shape as a join -/

variable {ts : List Shape}

/-- Of two distinct shapes, one does not widen to the other. -/
theorem not_all_le_of_distinct {t u : Shape} {us : List Shape} (hts : ∀ t ∈ ts, t.Proper)
    (h : distinct ts = t :: u :: us) : ¬∀ v ∈ ts, ∀ w ∈ ts, v ≤ w := by
  intro hle
  have ht : t ∈ ts := mem_of_mem_distinct (h ▸ List.mem_cons_self ..)
  have hu : u ∈ ts := mem_of_mem_distinct (h ▸ List.mem_cons_of_mem _ (List.mem_cons_self ..))
  have hpair := pairwise_distinct ts
  rw [h, List.pairwise_cons] at hpair
  refine hpair.1 u (List.mem_cons_self ..) ?_
  exact Shape.same_of_le_of_ge (hts t ht).keyed (hts u hu).keyed (hle t ht u hu) (hle u hu t ht)

/-- The element shape is the least upper bound of the items' shapes where they are all equal, or none is
an array. -/
theorem isJoin_joinElements (hts : ∀ t ∈ ts, t.Proper) (hne : ts ≠ [])
    (h : (∀ t ∈ ts, ∀ u ∈ ts, t ≤ u) ∨ ∀ t ∈ ts, t.arrayDepth = 0) :
    (joinElements ts).IsJoin ts := by
  refine isJoin_of_distinct hts ?_
  have hmem : ∀ d ∈ distinct ts, d ∈ ts := fun _ => mem_of_mem_distinct
  unfold joinElements
  cases hd : distinct ts with
  | nil => exact absurd hd (distinct_ne_nil hne)
  | cons t rest =>
    rw [hd, List.forall_mem_cons] at hmem
    have ht := hts t hmem.1
    have hrest : ∀ u ∈ rest, u.Proper := fun u hu => hts u (hmem.2 u hu)
    cases rest with
    | nil => exact Shape.isJoin_self ht hrest fun _ hu => nomatch hu
    | cons u us =>
      have hdepth := h.resolve_left (not_all_le_of_distinct hts hd)
      have hjoin := Shape.isJoin_joinInner ht hrest fun v hv => hdepth v (hmem.2 v hv)
      cases t with
      | prim p => exact hjoin
      | array e => simpa [Shape.arrayDepth] using hdepth _ hmem.1
      | object o => exact hjoin

/-- A shape joined with one in arrays, of which it is in none, accepts anything. -/
theorem joinInner_eq_anything {t u : Shape} {others : List Shape} (ht : t.arrayDepth = 0)
    (hu : u ∈ others) (hd : u.arrayDepth ≠ 0) : t.joinInner others = .anything := by
  have harray : ∃ e, u = .array e := by
    cases u with
    | array e => exact ⟨e, rfl⟩
    | prim p => exact absurd rfl hd
    | object o => exact absurd rfl hd
  obtain ⟨e, rfl⟩ := harray
  cases t with
  | prim p =>
    have := ((Primitive.foldl_join_le_iff others p _).mp le_rfl).2 _ hu
    rw [Shape.joinInner, Primitive.anything_le_iff.mp this]
  | array f => simp [Shape.arrayDepth] at ht
  | object o => rw [Shape.joinInner, allObjects?_eq_none hu rfl]

/-- The element shape accepts anything where the items' shapes are neither all equal nor all outside of
arrays. -/
theorem joinElements_eq_anything (hts : ∀ t ∈ ts, t.Proper)
    (h : ¬((∀ t ∈ ts, ∀ u ∈ ts, t ≤ u) ∨ ∀ t ∈ ts, t.arrayDepth = 0)) :
    joinElements ts = .anything := by
  rw [not_or] at h
  obtain ⟨hle, hdepth⟩ := h
  push Not at hdepth
  obtain ⟨a, ha, hda⟩ := hdepth
  obtain ⟨d, hd, hsame⟩ := exists_distinct_same (fun u hu => (hts u hu).keyed) ha
  have hdd : d.arrayDepth ≠ 0 := (Shape.same_iff_innermost.mp hsame).1 ▸ hda
  unfold joinElements
  cases hdist : distinct ts with
  | nil => simp [hdist] at hd
  | cons t rest =>
    cases rest with
    | nil =>
      -- one shape is equal to all, so that all are equal
      have hone : ∀ u ∈ ts, t ≤ u ∧ u ≤ t := fun u hu => by
        obtain ⟨e, he, hsame⟩ := exists_distinct_same (fun v hv => (hts v hv).keyed) hu
        have het := hts e (mem_of_mem_distinct he)
        rw [hdist, List.mem_singleton] at he
        exact he ▸ Shape.le_and_ge_of_same het.keyed (hts u hu).keyed hsame
      exact absurd (fun u hu v hv => (hone u hu).2.trans (hone v hv).1) hle
    | cons u us =>
      rw [hdist] at hd
      cases t with
      | array e => rfl
      | prim p =>
        have hmem : d ∈ u :: us := (List.mem_cons.mp hd).resolve_left fun h => hdd (h ▸ rfl)
        exact joinInner_eq_anything rfl hmem hdd
      | object o =>
        have hmem : d ∈ u :: us := (List.mem_cons.mp hd).resolve_left fun h => hdd (h ▸ rfl)
        exact joinInner_eq_anything rfl hmem hdd

/-! ### What holds of every element shape -/

/-- The element shape is wider than the shape of each item. -/
theorem le_joinElements (hts : ∀ t ∈ ts, t.Proper) {t : Shape} (ht : t ∈ ts) : t ≤ joinElements ts := by
  by_cases h : (∀ t ∈ ts, ∀ u ∈ ts, t ≤ u) ∨ ∀ t ∈ ts, t.arrayDepth = 0
  · exact (isJoin_joinElements hts (List.ne_nil_of_mem ht) h).le ht
  · rw [joinElements_eq_anything hts h]
    exact Shape.le_anything t

theorem proper_joinElements (hts : ∀ t ∈ ts, t.Proper) : (joinElements ts).Proper := by
  by_cases hne : ts = []
  · subst hne
    exact .prim _
  · by_cases h : (∀ t ∈ ts, ∀ u ∈ ts, t ≤ u) ∨ ∀ t ∈ ts, t.arrayDepth = 0
    · exact (isJoin_joinElements hts hne h).proper
    · rw [joinElements_eq_anything hts h]
      exact .prim _

/-- The element shape is the shape of an item, a primitive, or the join of objects that items have. -/
theorem joinElements_cases (ts : List Shape) :
    joinElements ts ∈ ts ∨ (∃ p, joinElements ts = .prim p) ∨
      ∃ o us, (∀ u ∈ o :: us, Shape.object u ∈ ts) ∧ joinElements ts = (o.joinWith us).orAnything := by
  have hmem : ∀ d ∈ distinct ts, d ∈ ts := fun _ => mem_of_mem_distinct
  unfold joinElements
  cases hd : distinct ts with
  | nil => exact .inr (.inl ⟨_, rfl⟩)
  | cons t rest =>
    rw [hd] at hmem
    cases rest with
    | nil => exact .inl (hmem t (List.mem_singleton_self t))
    | cons u us =>
      cases t with
      | prim p => exact .inr (.inl ⟨_, rfl⟩)
      | array e => exact .inr (.inl ⟨_, rfl⟩)
      | object o =>
        simp only [Shape.joinInner]
        cases hos : allObjects? (u :: us) with
        | none => exact .inr (.inl ⟨_, rfl⟩)
        | some os =>
          rw [allObjects?_eq_some_iff] at hos
          rw [hos] at hmem
          refine .inr (.inr ⟨o, os, fun v hv => hmem _ ?_, rfl⟩)
          exact List.mem_map_of_mem (f := Shape.object) hv

end JsonShape
