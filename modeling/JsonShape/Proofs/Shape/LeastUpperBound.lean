import JsonShape.Proofs.Shape.Equality
import JsonShape.Proofs.Shape.Join
import Mathlib.Order.Bounds.Basic

/-!
# Joins are least upper bounds

A join of proper shapes is the least of all proper shapes that are wider than each of them: nothing is
widened or dropped that some wider shape would keep. The objects of a join may turn out empty; below the
top what accepts anything then takes their place, and it is least there since no proper shape has an
empty object.
-/

namespace JsonShape

/-- The shape is the least proper one that is wider than each of a list. -/
def Shape.IsJoin (m : Shape) (ts : List Shape) : Prop :=
  IsLeast {w | w.Proper ∧ ∀ t ∈ ts, t ≤ w} m

/-- The object shape is the least proper one that is wider than each of a list. It may be empty. -/
def ObjectShape.IsJoin (m : ObjectShape) (os : List ObjectShape) : Prop :=
  IsLeast {w | w.Proper ∧ ∀ o ∈ os, o ≤ w} m

namespace Shape

variable {t x : Shape} {others : List Shape}

theorem IsJoin.proper {m : Shape} {ts : List Shape} (h : m.IsJoin ts) : m.Proper := h.1.1

theorem IsJoin.le {m : Shape} {ts : List Shape} (h : m.IsJoin ts) (ht : t ∈ ts) : t ≤ m := h.1.2 t ht

theorem IsJoin.least {m w : Shape} {ts : List Shape} (h : m.IsJoin ts) (hw : w.Proper)
    (hts : ∀ t ∈ ts, t ≤ w) : m ≤ w := h.2 ⟨hw, hts⟩

theorem IsJoin.intro {m : Shape} {ts : List Shape} (hm : m.Proper) (hle : ∀ t ∈ ts, t ≤ m)
    (hleast : ∀ w : Shape, w.Proper → (∀ t ∈ ts, t ≤ w) → m ≤ w) : m.IsJoin ts :=
  ⟨⟨hm, hle⟩, fun w ⟨hw, hts⟩ => hleast w hw hts⟩

/-- What accepts anything is the join of shapes that nothing else is wider than. -/
theorem isJoin_anything {ts : List Shape}
    (h : ∀ w : Shape, w.Proper → (∀ t ∈ ts, t ≤ w) → w = .anything) : Shape.anything.IsJoin ts := by
  refine .intro (.prim _) (fun t _ => le_anything t) ?_
  intro w hw hle
  rw [h w hw hle]

/-! ### Around arrays -/

/-- What is wider than a shape that is no array is none either. -/
theorem eq_innermost_of_le {u : Shape} (ht : t.arrayDepth = 0) (h : t ≤ u) : u = u.innermost := by
  rcases le_iff_innermost.mp h with rfl | ⟨hd, -⟩
  · rfl
  · exact eq_innermost_of_arrayDepth (hd.symm.trans ht)

/-- A join of what is inside equally many arrays gives the join of the arrays. -/
theorem IsJoin.wrap (hx : x.IsJoin (t.innermost :: others.map innermost))
    (hd : ∀ u ∈ others, u.arrayDepth = t.arrayDepth) : (x.wrap t.arrayDepth).IsJoin (t :: others) := by
  have hx₀ : x = x.innermost := eq_innermost_of_le t.arrayDepth_innermost (hx.le (List.mem_cons_self ..))
  have hdepth : (x.wrap t.arrayDepth).arrayDepth = t.arrayDepth := by
    rw [arrayDepth_wrap, hx₀, arrayDepth_innermost, Nat.zero_add]
  have hinner : ∀ u ∈ t :: others, u.innermost ∈ t.innermost :: others.map innermost := fun u hu =>
    List.mem_map_of_mem (f := innermost) hu
  refine .intro (proper_wrap_iff.mpr hx.proper) ?_ ?_
  · intro u hu
    have hu' : u.arrayDepth = t.arrayDepth := by
      rcases List.mem_cons.mp hu with rfl | hu
      · rfl
      · exact hd u hu
    rw [le_iff_innermost, hdepth, innermost_wrap, ← hx₀]
    exact .inr ⟨hu', hx.le (hinner u hu)⟩
  · intro w hw hle
    rcases le_iff_innermost.mp (hle t (List.mem_cons_self ..)) with rfl | ⟨htw, -⟩
    · exact le_anything _
    · rw [le_iff_innermost, hdepth, innermost_wrap, ← hx₀]
      refine .inr ⟨htw, hx.least (proper_innermost_iff.mpr hw) fun v hv => ?_⟩
      obtain ⟨u, hu, rfl⟩ := List.mem_map.mp (show v ∈ (t :: others).map innermost from hv)
      exact innermost_le_innermost (hle u hu)

/-- Only what accepts anything is wider than shapes in unequally many arrays. -/
theorem isJoin_anything_of_arrayDepth_ne {u : Shape} (hu : u ∈ others)
    (hd : u.arrayDepth ≠ t.arrayDepth) : Shape.anything.IsJoin (t :: others) := by
  refine isJoin_anything ?_
  intro w _ hle
  rw [List.forall_mem_cons] at hle
  rcases le_iff_innermost.mp hle.1 with rfl | ⟨htw, -⟩
  · rfl
  · rcases le_iff_innermost.mp (hle.2 u hu) with rfl | ⟨huw, -⟩
    · rfl
    · exact absurd (huw.trans htw.symm) hd

theorem IsJoin.joinAround (hx : x.IsJoin (t.innermost :: others.map innermost)) :
    (t.joinAround others x).IsJoin (t :: others) := by
  unfold Shape.joinAround
  split
  · next h => exact hx.wrap (by simpa using h)
  · next h =>
    obtain ⟨u, hu, hd⟩ : ∃ u ∈ others, u.arrayDepth ≠ t.arrayDepth := by simpa using h
    exact isJoin_anything_of_arrayDepth_ne hu hd

/-! ### Primitives -/

/-- A primitive is wider than a shape that is no array if it is above the shape's primitive. -/
theorem le_prim_iff {q : Primitive} (ht : t.arrayDepth = 0) : t ≤ .prim q ↔ t.toPrimitive ≤ q := by
  cases t with
  | prim p => exact prim_le_prim_iff
  | array e => simp [arrayDepth] at ht
  | object o => rw [object_le_prim_iff, toPrimitive, Primitive.anything_le_iff]

theorem isJoin_foldl_join {p : Primitive} (hd : ∀ u ∈ others, u.arrayDepth = 0) :
    (Shape.prim (others.foldl (fun q u => q.join u.toPrimitive) p)).IsJoin (.prim p :: others) := by
  obtain ⟨hp, hu⟩ := (Primitive.foldl_join_le_iff others p _).mp le_rfl
  refine .intro (.prim _) ?_ ?_
  · rw [List.forall_mem_cons]
    exact ⟨prim_le_prim_iff.mpr hp, fun u h => (le_prim_iff (hd u h)).mpr (hu u h)⟩
  · intro w _ hle
    rw [List.forall_mem_cons] at hle
    obtain ⟨q, rfl⟩ : ∃ q, w = .prim q := by
      rcases w.innermost_cases with ⟨q, hq⟩ | ⟨s, hs⟩
      · exact ⟨q, (eq_innermost_of_le rfl hle.1).trans hq⟩
      · exact absurd (hs ▸ innermost_le_innermost hle.1) not_prim_le_object
    rw [prim_le_prim_iff, Primitive.foldl_join_le_iff]
    exact ⟨prim_le_prim_iff.mp hle.1, fun u h => (le_prim_iff (hd u h)).mp (hle.2 u h)⟩

/-- Only what accepts anything is wider than an object and a shape that is none. -/
theorem isJoin_anything_of_mixed {o : ObjectShape} {u : Shape} (hu : u ∈ others)
    (hd : u.arrayDepth = 0) (ho : u.toObject? = none) : Shape.anything.IsJoin (.object o :: others) := by
  refine isJoin_anything ?_
  intro w _ hle
  rw [List.forall_mem_cons] at hle
  have hw := eq_innermost_of_le rfl hle.1
  rcases w.innermost_cases with ⟨q, hq⟩ | ⟨s, hs⟩
  · have hle' := hle.1
    rw [hw, hq, object_le_prim_iff] at hle'
    rw [hw, hq, hle']
  · have hle' := hle.2 u hu
    rw [hw, hs] at hle'
    cases u with
    | prim p => exact absurd hle' not_prim_le_object
    | array e => simp [arrayDepth] at hd
    | object r => simp [toObject?] at ho

end Shape

/-! ### Objects -/

namespace ObjectShape

variable {o m : ObjectShape} {others : List ObjectShape}

theorem IsJoin.proper {os : List ObjectShape} (h : m.IsJoin os) : m.Proper := h.1.1

theorem IsJoin.le {os : List ObjectShape} (h : m.IsJoin os) (ho : o ∈ os) : o ≤ m := h.1.2 o ho

theorem IsJoin.least {w : ObjectShape} {os : List ObjectShape} (h : m.IsJoin os) (hw : w.Proper)
    (hos : ∀ o ∈ os, o ≤ w) : m ≤ w := h.2 ⟨hw, hos⟩

theorem IsJoin.intro {os : List ObjectShape} (hm : m.Proper) (hle : ∀ o ∈ os, o ≤ m)
    (hleast : ∀ w : ObjectShape, w.Proper → (∀ o ∈ os, o ≤ w) → m ≤ w) : m.IsJoin os :=
  ⟨⟨hm, hle⟩, fun w ⟨hw, hos⟩ => hleast w hw hos⟩

/-- Where the shapes of each key have a join, so have the objects. -/
theorem isJoin_joinWith_of_properties (ho : o.Proper) (hothers : ∀ u ∈ others, u.Proper)
    (hjoin : ∀ k t us, (k, t) ∈ o.properties → (∀ u ∈ us, u.Proper) → (t.join us).IsJoin (t :: us)) :
    (o.joinWith others).IsJoin (o :: others) := by
  -- what stands under a key of the join, and of which shapes it is the join
  have hmem : ∀ {k v}, (k, v) ∈ (o.joinWith others).properties →
      ∃ t us, o.get? k = some t ∧ shapesAt? k others = some us ∧ v.IsJoin (t :: us) := by
    intro k v h
    obtain ⟨t, us, ht, hus, rfl⟩ := mem_properties_joinWith.mp h
    refine ⟨t, us, get?_of_mem ho.keys_nodup ht, hus, hjoin k t us ht fun u hu => ?_⟩
    obtain ⟨w, hw, hu⟩ := exists_get?_of_shapesAt? hus hu
    exact (hothers w hw).get? hu
  refine .intro ⟨ho.keys_nodup.sublist keys_joinWith_sublist, ?_⟩ ?_ ?_
  · intro k v h
    obtain ⟨_, _, _, _, hv⟩ := hmem h
    exact hv.proper
  · intro u hu
    rw [le_iff]
    rcases List.mem_cons.mp hu with rfl | hu
    · refine ⟨fun k hk => keys_joinWith_sublist.subset hk, fun k t v ht hv => ?_⟩
      obtain ⟨t', us, ht', -, hv⟩ := hmem (mem_of_get? hv)
      rw [ht, Option.some.injEq] at ht'
      exact hv.le (ht' ▸ List.mem_cons_self ..)
    · refine ⟨fun k hk => ?_, fun k x v hx hv => ?_⟩
      · obtain ⟨v, hv⟩ := mem_keys.mp hk
        obtain ⟨_, us, -, hus, -⟩ := hmem hv
        obtain ⟨x, -, hx⟩ := exists_mem_of_shapesAt? hus hu
        exact mem_keys_of_get? hx
      · obtain ⟨_, us, -, hus, hv⟩ := hmem (mem_of_get? hv)
        obtain ⟨x', hx', hux⟩ := exists_mem_of_shapesAt? hus hu
        rw [hx, Option.some.injEq] at hux
        exact hv.le (List.mem_cons_of_mem _ (hux ▸ hx'))
  · intro w hw hle
    rw [List.forall_mem_cons] at hle
    refine le_iff.mpr ⟨fun k hk => ?_, fun k v x hv hx => ?_⟩
    · obtain ⟨t, ht⟩ := mem_keys.mp ((le_iff.mp hle.1).1 k hk)
      obtain ⟨us, hus⟩ := exists_shapesAt? fun u hu => (le_iff.mp (hle.2 u hu)).1 k hk
      exact mem_keys.mpr ⟨_, mem_properties_joinWith.mpr ⟨t, us, ht, hus, rfl⟩⟩
    · obtain ⟨t, us, ht, hus, hv⟩ := hmem (mem_of_get? hv)
      refine hv.least (hw.get? hx) (List.forall_mem_cons.mpr ⟨?_, fun y hy => ?_⟩)
      · exact (le_iff.mp hle.1).2 k t x ht hx
      · obtain ⟨u, hu, hy⟩ := exists_get?_of_shapesAt? hus hy
        exact (le_iff.mp (hle.2 u hu)).2 k y x hy hx

/-- In the place of an empty join, what accepts anything is the join of the objects as shapes. -/
theorem IsJoin.orAnything (h : m.IsJoin (o :: others)) :
    m.orAnything.IsJoin (.object o :: others.map .object) := by
  have hmap : ∀ v ∈ Shape.object o :: others.map Shape.object, ∃ u ∈ o :: others, v = .object u := by
    intro v hv
    obtain ⟨u, hu, rfl⟩ := List.mem_map.mp (show v ∈ (o :: others).map Shape.object from hv)
    exact ⟨u, hu, rfl⟩
  -- a proper shape above all of them other than the widest is an object above all of them
  have habove : ∀ w : Shape, w.Proper → (∀ v ∈ Shape.object o :: others.map .object, v ≤ w) →
      w = .anything ∨ ∃ s : ObjectShape, w = .object s ∧ s.isEmpty = false ∧ m ≤ s := by
    intro w hw hle
    have hw₀ := Shape.eq_innermost_of_le rfl (hle _ (List.mem_cons_self ..))
    rcases w.innermost_cases with ⟨q, hq⟩ | ⟨s, hs⟩
    · have := hle _ (List.mem_cons_self ..)
      rw [hw₀, hq, Shape.object_le_prim_iff] at this
      exact .inl (by rw [hw₀, hq, this])
    · rw [hw₀, hs] at hw hle
      obtain ⟨hse, hsp⟩ := Shape.proper_object_iff.mp hw
      refine .inr ⟨s, hw₀.trans hs, hse, h.least hsp fun u hu => ?_⟩
      exact hle _ (List.mem_map_of_mem (f := Shape.object) hu)
  unfold ObjectShape.orAnything
  split
  · next hm =>
    refine Shape.isJoin_anything ?_
    intro w hw hle
    rcases habove w hw hle with rfl | ⟨s, rfl, hse, hms⟩
    · rfl
    · rw [isEmpty_of_le hms hm] at hse
      cases hse
  · next hm =>
    refine .intro (Shape.proper_object_iff.mpr ⟨by simpa using hm, h.proper⟩) ?_ ?_
    · intro v hv
      obtain ⟨u, hu, rfl⟩ := hmap v hv
      exact h.le hu
    · intro w hw hle
      rcases habove w hw hle with rfl | ⟨s, rfl, -, hms⟩
      · exact Shape.le_anything _
      · exact hms

end ObjectShape

/-! ### Every join -/

namespace Shape

variable {t : Shape} {others : List Shape}

/-- Where all shapes are equal to the first, it is their join. -/
theorem isJoin_self (ht : t.Proper) (hothers : ∀ u ∈ others, u.Proper)
    (hsame : ∀ u ∈ others, u.same t = true) : t.IsJoin (t :: others) := by
  refine .intro ht (List.forall_mem_cons.mpr ⟨le_rfl, ?_⟩) ?_
  · intro u hu
    exact (le_and_ge_of_same (hothers u hu).keyed ht.keyed (hsame u hu)).1
  · intro w _ hle
    exact hle t (List.mem_cons_self ..)

/-- A property's shape joins with others if what is inside their arrays does. -/
theorem isJoin_join_of_inner (ht : t.Proper) (hothers : ∀ u ∈ others, u.Proper)
    (hinner : (t.joinInner (others.map innermost)).IsJoin (t.innermost :: others.map innermost)) :
    (t.join others).IsJoin (t :: others) := by
  unfold join
  split
  · next h => exact isJoin_self ht hothers (List.all_eq_true.mp h)
  · exact hinner.joinAround

/-- What is inside the arrays of a shape joins with proper shapes that are no arrays. -/
theorem isJoin_joinInner (ht : t.Proper) (hothers : ∀ u ∈ others, u.Proper)
    (hd : ∀ u ∈ others, u.arrayDepth = 0) : (t.joinInner others).IsJoin (t.innermost :: others) := by
  induction t using Shape.induction generalizing others with
  | prim p => exact isJoin_foldl_join hd
  | array e ih => exact ih (proper_array_iff.mp ht) hothers hd
  | object o ih =>
    obtain ⟨-, ho⟩ := proper_object_iff.mp ht
    rw [joinInner, innermost]
    cases hus : allObjects? others with
    | none =>
      obtain ⟨u, hu, hnone⟩ := exists_of_allObjects?_eq_none hus
      exact isJoin_anything_of_mixed hu (hd u hu) hnone
    | some us =>
      rw [allObjects?_eq_some_iff] at hus
      subst hus
      have hus : ∀ u ∈ us, u.Proper := fun u hu =>
        (proper_object_iff.mp (hothers _ (List.mem_map_of_mem hu))).2
      refine (ObjectShape.isJoin_joinWith_of_properties ho hus fun k v vs hv hvs => ?_).orAnything
      refine isJoin_join_of_inner (ho.property hv) hvs (ih k v hv (ho.property hv) ?_ ?_)
      · exact List.forall_mem_map.mpr fun x hx => proper_innermost_iff.mpr (hvs x hx)
      · exact List.forall_mem_map.mpr fun x _ => x.arrayDepth_innermost

theorem isJoin_joinInner_innermost (ht : t.Proper) (hothers : ∀ u ∈ others, u.Proper) :
    (t.joinInner (others.map innermost)).IsJoin (t.innermost :: others.map innermost) :=
  isJoin_joinInner ht (List.forall_mem_map.mpr fun u hu => proper_innermost_iff.mpr (hothers u hu))
    (List.forall_mem_map.mpr fun u _ => u.arrayDepth_innermost)

/-- The join of a proper shape with proper others is their least upper bound. -/
theorem isJoin_joinAll (ht : t.Proper) (hothers : ∀ u ∈ others, u.Proper) :
    (t.joinAll others).IsJoin (t :: others) :=
  (isJoin_joinInner_innermost ht hothers).joinAround

theorem isJoin_join (ht : t.Proper) (hothers : ∀ u ∈ others, u.Proper) :
    (t.join others).IsJoin (t :: others) :=
  isJoin_join_of_inner ht hothers (isJoin_joinInner_innermost ht hothers)

end Shape

/-- The join of a proper object with proper others is their least upper bound. -/
theorem ObjectShape.isJoin_joinWith {o : ObjectShape} {others : List ObjectShape} (ho : o.Proper)
    (hothers : ∀ u ∈ others, u.Proper) : (o.joinWith others).IsJoin (o :: others) :=
  isJoin_joinWith_of_properties ho hothers fun _ _ _ ht hus => Shape.isJoin_join (ho.property ht) hus

/-! ### Joining again -/

/-- A join is below another if each shape it joins is below one that the other joins. -/
theorem Shape.IsJoin.mono {m m' : Shape} {ts us : List Shape} (h : m.IsJoin ts) (h' : m'.IsJoin us)
    (hle : ∀ t ∈ ts, ∃ u ∈ us, t ≤ u) : m ≤ m' :=
  h.least h'.proper fun t ht =>
    let ⟨_, hu, htu⟩ := hle t ht
    htu.trans (h'.le hu)

theorem ObjectShape.IsJoin.mono {m m' : ObjectShape} {os us : List ObjectShape} (h : m.IsJoin os)
    (h' : m'.IsJoin us) (hle : ∀ o ∈ os, ∃ u ∈ us, o ≤ u) : m ≤ m' :=
  h.least h'.proper fun o ho =>
    let ⟨_, hu, hou⟩ := hle o ho
    hou.trans (h'.le hu)

/-- A join of shapes is still one with another shape that was below it. -/
theorem Shape.IsJoin.same_of_mem {m m' : Shape} {ts ws : List Shape} (h : m.IsJoin ts)
    (h' : m'.IsJoin ws) (hm : m ∈ ws) (hws : ∀ w ∈ ws, w = m ∨ w ∈ ts) : m'.same m = true := by
  refine same_of_le_of_ge h'.proper.keyed h.proper.keyed (h'.least h.proper fun w hw => ?_) (h'.le hm)
  rcases hws w hw with rfl | hw
  · exact le_rfl
  · exact h.le hw

theorem ObjectShape.IsJoin.same_of_mem {m m' : ObjectShape} {os ws : List ObjectShape}
    (h : m.IsJoin os) (h' : m'.IsJoin ws) (hm : m ∈ ws) (hws : ∀ w ∈ ws, w = m ∨ w ∈ os) :
    m'.same m = true := by
  refine Shape.same_of_le_of_ge h'.proper.keyed h.proper.keyed
    (h'.least h.proper fun w hw => ?_) (h'.le hm)
  rcases hws w hw with rfl | hw
  · exact le_rfl
  · exact h.le hw

/-! ### Unification -/

theorem unifyObjects_isJoin {os : List ObjectShape} (hos : os ≠ []) (ho : ∀ o ∈ os, o.Proper) :
    ∃ m, (unifyObjects os).Yields (.ok m) ∧ m.IsJoin os := by
  obtain ⟨o, us, rfl⟩ := List.exists_cons_of_ne_nil hos
  rw [List.forall_mem_cons] at ho
  exact ⟨_, unifyObjects_yields o us, ObjectShape.isJoin_joinWith ho.1 ho.2⟩

theorem unifyShapes_isJoin {ts : List Shape} (hts : ts ≠ []) (ht : ∀ t ∈ ts, t.Proper) :
    ∃ m, (unifyShapes ts).Yields (.ok m) ∧ m.IsJoin ts := by
  obtain ⟨t, us, rfl⟩ := List.exists_cons_of_ne_nil hts
  rw [List.forall_mem_cons] at ht
  exact ⟨_, unifyShapes_yields t us, Shape.isJoin_joinAll ht.1 ht.2⟩

/-- **Unification yields least upper bounds**: of one or more proper objects, and of one or more proper
shapes. Unified again with shapes it was unified from, a least upper bound stays what it is. -/
theorem unification_isJoin (os : List ObjectShape) (ts : List Shape) (hos : os ≠ [])
    (ho : ∀ o ∈ os, o.Proper) (hts : ts ≠ []) (ht : ∀ t ∈ ts, t.Proper) :
    (∃ m, (unifyObjects os).Yields (.ok m) ∧ m.IsJoin os ∧
      ∀ ws, m ∈ ws → (∀ w ∈ ws, w = m ∨ w ∈ os) →
        ∃ m', (unifyObjects ws).Yields (.ok m') ∧ m'.same m = true) ∧
    ∃ m, (unifyShapes ts).Yields (.ok m) ∧ m.IsJoin ts ∧
      ∀ ws, m ∈ ws → (∀ w ∈ ws, w = m ∨ w ∈ ts) →
        ∃ m', (unifyShapes ws).Yields (.ok m') ∧ m'.same m = true := by
  constructor
  · obtain ⟨m, hm, hjoin⟩ := unifyObjects_isJoin hos ho
    refine ⟨m, hm, hjoin, fun ws hmem hws => ?_⟩
    have hproper : ∀ w ∈ ws, w.Proper := fun w hw =>
      (hws w hw).elim (fun h => h ▸ hjoin.proper) (ho w)
    obtain ⟨m', hm', hjoin'⟩ := unifyObjects_isJoin (List.ne_nil_of_mem hmem) hproper
    exact ⟨m', hm', hjoin.same_of_mem hjoin' hmem hws⟩
  · obtain ⟨m, hm, hjoin⟩ := unifyShapes_isJoin hts ht
    refine ⟨m, hm, hjoin, fun ws hmem hws => ?_⟩
    have hproper : ∀ w ∈ ws, w.Proper := fun w hw =>
      (hws w hw).elim (fun h => h ▸ hjoin.proper) (ht w)
    obtain ⟨m', hm', hjoin'⟩ := unifyShapes_isJoin (List.ne_nil_of_mem hmem) hproper
    exact ⟨m', hm', hjoin.same_of_mem hjoin' hmem hws⟩

/-- Two records in equally many arrays: identifiers of different width, a name that only one has, lists
of different numbers, and origins that have no key in common. -/
theorem unification_isJoin_records :
    let first : ObjectShape := ⟨"Item", 0, [("id", .prim .integer), ("name", .prim .string),
      ("tags", .array (.prim .integer)), ("origin", .object ⟨"Origin", 1, [("city", .prim .string)]⟩)]⟩
    let second : ObjectShape := ⟨"Item", 0, [("id", .prim .longInteger),
      ("tags", .array (.prim .float)), ("origin", .object ⟨"Origin", 1, [("zip", .prim .integer)]⟩)]⟩
    let joined : ObjectShape := ⟨"Item", 0, [("id", .prim .longInteger), ("tags", .array (.prim .float)),
      ("origin", .anything)]⟩
    joined.IsJoin [first, second] ∧
      (Shape.array (.object joined)).IsJoin [.array (.object first), .array (.object second)] := by
  intro first second joined
  have h₁ : first.Proper := by
    simp [first, ObjectShape.proper_iff, ObjectShape.keys, ObjectShape.isEmpty,
      Shape.proper_object_iff, Shape.proper_array_iff, Shape.Proper.prim]
  have h₂ : second.Proper := by
    simp [second, ObjectShape.proper_iff, ObjectShape.keys, ObjectShape.isEmpty,
      Shape.proper_object_iff, Shape.proper_array_iff, Shape.Proper.prim]
  have ha : ∀ t ∈ [Shape.array (.object first), .array (.object second)], t.Proper := by
    simp only [List.forall_mem_cons, List.not_mem_nil, false_imp_iff, implies_true, and_true,
      Shape.proper_array_iff, Shape.proper_object_iff]
    exact ⟨⟨rfl, h₁⟩, rfl, h₂⟩
  obtain ⟨⟨m, hm, hjoin, -⟩, n, hn, hjoin', -⟩ := unification_isJoin [first, second]
    [.array (.object first), .array (.object second)] (by simp)
    (List.forall_mem_cons.mpr ⟨h₁, List.forall_mem_singleton.mpr h₂⟩) (by simp) ha
  have e₁ : Except.ok joined = Except.ok m := hm.run_none {}
  have e₂ : Except.ok (Shape.array (.object joined)) = Except.ok n := hn.run_none {}
  cases e₁
  cases e₂
  exact ⟨hjoin, hjoin'⟩

end JsonShape
