import JsonShape.Identifier
import JsonShape.Proofs.Shape.Registry
import Mathlib.Logic.Relation

/-!
# Consistent objects

What is asked of every object in a tree: no key comes twice, what it refers to is not empty, is one level
deeper and is named after its key, and what it refers to by one name is one object. An object is consistent
if this holds of everything it reaches. Joins keep it, though they look at no registry: a join of objects
joins what they refer to by one name in one way.
-/

namespace JsonShape

/-! ### Definitions -/

namespace ObjectShape

/-- The object has a property whose shape is another object, inside any number of arrays. -/
def Refers (o u : ObjectShape) : Prop := ∃ k t, (k, t) ∈ o.properties ∧ t.innerObject? = some u

/-- The object is another, or refers to one that reaches it. -/
def Reaches : ObjectShape → ObjectShape → Prop := Relation.ReflTransGen Refers

/-- What is asked of one object and those it refers to. -/
structure WellFormed (o : ObjectShape) : Prop where
  /-- No key comes twice. -/
  keys_nodup : o.keys.Nodup
  /-- An object is named after the key that refers to it and the arrays that it is in there. -/
  name_eq : ∀ {k t u}, (k, t) ∈ o.properties → t.innerObject? = some u →
    u.name = elementName^[t.arrayDepth] (deriveIdentifier k)
  /-- What the object refers to is one level deeper. -/
  depth_eq : ∀ {u}, o.Refers u → u.depth = o.depth + 1
  /-- What the object refers to has a property. -/
  isEmpty_eq : ∀ {u}, o.Refers u → u.isEmpty = false
  /-- What the object refers to by one name is one object. -/
  coherent : ∀ {u v}, o.Refers u → o.Refers v → u.name = v.name → u = v

/-- Every object that an object reaches is well-formed. -/
def Consistent (o : ObjectShape) : Prop := ∀ u, o.Reaches u → u.WellFormed

variable {o u : ObjectShape}

/-- An object is consistent if it is well-formed and what it refers to is consistent. -/
theorem consistent_iff : o.Consistent ↔ o.WellFormed ∧ ∀ u, o.Refers u → u.Consistent := by
  constructor
  · intro h
    exact ⟨h o .refl, fun u hu w hw => h w (hw.head hu)⟩
  · rintro ⟨ho, h⟩ w hw
    rcases hw.cases_head with rfl | ⟨u, hu, hw⟩
    · exact ho
    · exact h u hu w hw

theorem Consistent.wellFormed (h : o.Consistent) : o.WellFormed := h o .refl

theorem Consistent.of_refers (h : o.Consistent) (hu : o.Refers u) : u.Consistent :=
  (consistent_iff.mp h).2 u hu

end ObjectShape

/-- An induction on objects by way of what they refer to. -/
theorem ObjectShape.refers_induction {P : ObjectShape → Prop}
    (step : ∀ o : ObjectShape, (∀ u, o.Refers u → P u) → P o) (o : ObjectShape) : P o := by
  have h (t : Shape) : ∀ u, t.innerObject? = some u → P u := by
    induction t using Shape.induction with
    | prim p => intro u hu; cases hu
    | array e ih => exact ih
    | object o ih =>
      intro u hu
      cases hu
      exact step o fun u ⟨k, t, ht, hu⟩ => ih k t ht u hu
  exact h (.object o) o rfl

/-- Consistent objects are proper. -/
theorem ObjectShape.Consistent.proper {o : ObjectShape} (h : o.Consistent) : o.Proper := by
  induction o using ObjectShape.refers_induction with
  | step o ih =>
    refine ⟨h.wellFormed.keys_nodup, fun {k t} ht => Shape.proper_of_innerObject fun u hu => ?_⟩
    have hr : o.Refers u := ⟨k, t, ht, hu⟩
    exact ⟨h.wellFormed.isEmpty_eq hr, ih u hr (h.of_refers hr)⟩

/-! ### Joins of consistent objects -/

section Join

variable {t : Shape} {vs : List Shape} {j : ObjectShape}

/-- The object inside a join of all shapes is the join of the objects inside them, in as many arrays. -/
theorem Shape.innerObject?_joinAll (h : (t.joinAll vs).innerObject? = some j) :
    (t.joinAll vs).arrayDepth = t.arrayDepth ∧ j.isEmpty = false ∧ ∃ x xs, t.innerObject? = some x ∧
      vs.Forall₂ (fun v y => v.arrayDepth = t.arrayDepth ∧ v.innerObject? = some y) xs ∧
      j = x.joinWith xs := by
  unfold joinAll joinAround at h ⊢
  split at h
  · next hdepth =>
    rw [if_pos hdepth]
    rw [innerObject?_wrap, ← joinInner_innermost] at h
    rw [← joinInner_innermost]
    rcases t.innermost_cases with ⟨p, hp⟩ | ⟨x, hx⟩
    · rw [hp] at h
      cases h
    · rw [hx, joinInner] at h ⊢
      split at h
      · next xs hxs =>
        have hinner : vs.Forall₂ (fun v y => v.innerObject? = some y) xs :=
          List.forall₂_map_left_iff.mp (mapM_eq_some_iff.mp hxs)
        rcases (x.joinWith xs).orAnything_cases with ⟨-, ha⟩ | ⟨hne, ha⟩
        · rw [ha] at h
          cases h
        · rw [ha] at h ⊢
          cases h
          refine ⟨by simp [arrayDepth], hne, x, xs, innerObject?_eq_some_iff.mpr hx, ?_, rfl⟩
          exact (List.forall₂_and_left _ _).mpr ⟨by simpa using hdepth, hinner⟩
      · cases h
  · cases h

/-- So is the object inside a join of a property's shapes; where the first shape is kept, its object is its
join with objects equal to it. -/
theorem Shape.innerObject?_join (ht : t.Proper) (hvs : ∀ v ∈ vs, v.Proper)
    (h : (t.join vs).innerObject? = some j) :
    (t.join vs).arrayDepth = t.arrayDepth ∧ j.isEmpty = false ∧ ∃ x xs, t.innerObject? = some x ∧
      vs.Forall₂ (fun v y => v.arrayDepth = t.arrayDepth ∧ v.innerObject? = some y) xs ∧
      j = x.joinWith xs := by
  unfold join at h ⊢
  split at h
  · next hsame =>
    rw [if_pos hsame]
    obtain ⟨hne, hj⟩ := ht.innerObject h
    obtain ⟨xs, hxs⟩ := exists_forall₂ (l := vs) (R := fun v y => (v.arrayDepth = t.arrayDepth ∧
        v.innerObject? = some y) ∧ y.Proper ∧ y.same j = true) fun v hv => by
      have hvt := List.all_eq_true.mp hsame v hv
      obtain ⟨y, hy, hyj⟩ := exists_innerObject?_of_same hvt h
      exact ⟨y, ⟨(same_iff_innermost.mp hvt).1, hy⟩, ((hvs v hv).innerObject hy).2, hyj⟩
    have heach : ∀ y ∈ xs, y.Proper ∧ y.same j = true := fun y hy => by
      obtain ⟨v, -, -, hv⟩ := exists_left_of_forall₂ hxs hy
      exact hv
    refine ⟨rfl, hne, j, xs, h, hxs.imp fun _ _ h => h.1, ?_⟩
    exact (ObjectShape.joinWith_eq_self hj.keyed (fun y hy => (heach y hy).1.keyed) fun y hy =>
      (heach y hy).2).symm
  · next hsame =>
    rw [if_neg hsame]
    exact innerObject?_joinAll h

end Join

namespace ObjectShape

variable {o j : ObjectShape} {us : List ObjectShape}

/-- What a join of objects refers to under a key is the join of what they all refer to under it. -/
theorem exists_of_mem_joinWith (ho : o.Proper) (hus : ∀ u ∈ us, u.Proper) {k : String} {v : Shape}
    (hv : (k, v) ∈ (o.joinWith us).properties) (hj : v.innerObject? = some j) :
    j.isEmpty = false ∧ ∃ t x xs, (k, t) ∈ o.properties ∧ t.innerObject? = some x ∧
      v.arrayDepth = t.arrayDepth ∧ us.Forall₂ (fun u y => ∃ s, (k, s) ∈ u.properties ∧
        s.arrayDepth = t.arrayDepth ∧ s.innerObject? = some y) xs ∧ j = x.joinWith xs := by
  obtain ⟨t, vs, ht, hvs, rfl⟩ := mem_properties_joinWith.mp hv
  have hproper : ∀ s ∈ vs, s.Proper := fun s hs => by
    obtain ⟨u, hu, hs⟩ := exists_get?_of_shapesAt? hvs hs
    exact (hus u hu).get? hs
  obtain ⟨hdepth, hne, x, xs, hx, hxs, rfl⟩ := Shape.innerObject?_join (ho.property ht) hproper hj
  refine ⟨hne, t, x, xs, ht, hx, hdepth, ?_, rfl⟩
  refine forall₂_trans (mapM_eq_some_iff.mp hvs) hxs fun u s y hs hy => ?_
  exact ⟨s, mem_of_get? hs, hy⟩

/-- A join of objects is well-formed if they are. -/
theorem wellFormed_joinWith (ho : o.Consistent) (hus : ∀ u ∈ us, u.Consistent) :
    (o.joinWith us).WellFormed := by
  have hparts {k : String} {v : Shape} {j : ObjectShape} :=
    exists_of_mem_joinWith (k := k) (v := v) (j := j) ho.proper fun u hu => (hus u hu).proper
  have hwf := ho.wellFormed
  refine {
    keys_nodup := hwf.keys_nodup.sublist keys_joinWith_sublist
    name_eq := ?name_eq
    depth_eq := ?depth_eq
    isEmpty_eq := ?isEmpty_eq
    coherent := ?coherent }
  case name_eq =>
    intro k v j hv hj
    obtain ⟨-, t, x, xs, ht, hx, hdepth, -, rfl⟩ := hparts hv hj
    rw [name_joinWith, hdepth]
    exact hwf.name_eq ht hx
  case depth_eq =>
    rintro j ⟨k, v, hv, hj⟩
    obtain ⟨-, t, x, xs, ht, hx, -, -, rfl⟩ := hparts hv hj
    rw [depth_joinWith, depth_joinWith]
    exact hwf.depth_eq ⟨k, t, ht, hx⟩
  case isEmpty_eq =>
    rintro j ⟨k, v, hv, hj⟩
    exact (hparts hv hj).1
  case coherent =>
    rintro j j' ⟨k, v, hv, hj⟩ ⟨k', v', hv', hj'⟩ hname
    obtain ⟨-, t, x, xs, ht, hx, -, hxs, rfl⟩ := hparts hv hj
    obtain ⟨-, t', x', xs', ht', hx', -, hxs', rfl⟩ := hparts hv' hj'
    rw [name_joinWith, name_joinWith] at hname
    have hxx := hwf.coherent ⟨k, t, ht, hx⟩ ⟨k', t', ht', hx'⟩ hname
    -- in every other object the two keys refer by the same name, and so to the same object
    have hxs : xs = xs' := by
      refine eq_of_forall₂ hxs hxs' fun u hu y y' ⟨s, hs, hd, hy⟩ ⟨s', hs', hd', hy'⟩ => ?_
      have huwf := (hus u hu).wellFormed
      refine huwf.coherent ⟨k, s, hs, hy⟩ ⟨k', s', hs', hy'⟩ ?_
      rw [huwf.name_eq hs hy, huwf.name_eq hs' hy', hd, hd', ← hwf.name_eq ht hx, ← hwf.name_eq ht' hx',
        hname]
    rw [hxx, hxs]

/-- A join of consistent objects is consistent. -/
theorem consistent_joinWith (ho : o.Consistent) (hus : ∀ u ∈ us, u.Consistent) :
    (o.joinWith us).Consistent := by
  induction o using ObjectShape.refers_induction generalizing us with
  | step o ih =>
    refine consistent_iff.mpr ⟨wellFormed_joinWith ho hus, fun j ⟨k, v, hv, hj⟩ => ?_⟩
    obtain ⟨-, t, x, xs, ht, hx, -, hxs, rfl⟩ :=
      exists_of_mem_joinWith ho.proper (fun u hu => (hus u hu).proper) hv hj
    have hr : o.Refers x := ⟨k, t, ht, hx⟩
    refine ih x hr (ho.of_refers hr) fun y hy => ?_
    obtain ⟨u, hu, s, hs, -, hy⟩ := exists_left_of_forall₂ hxs hy
    exact (hus u hu).of_refers ⟨k, s, hs, hy⟩

end ObjectShape

/-- What a name stands for is at the depth of its objects, and consistent if they are. -/
theorem consistent_of_settled? {os : List ObjectShape} {depth : Nat}
    (hos : ∀ o ∈ os, o.depth = depth ∧ o.Consistent) {name : String} {j : ObjectShape}
    (h : settled? os name = some j) : j.depth = depth ∧ j.Consistent := by
  refine settled?_induction (P := fun j => j.depth = depth ∧ j.Consistent) ?_ hos h
  rintro j u ⟨hjd, hjc⟩ ⟨-, huc⟩
  exact ⟨ObjectShape.depth_joinWith.trans hjd,
    ObjectShape.consistent_joinWith hjc (List.forall_mem_singleton.mpr huc)⟩

/-! ### Subtypes -/

/-- Each name has a first object. -/
theorem exists_mem_firstOfEachName {os : List ObjectShape} {o : ObjectShape} (h : o ∈ os) :
    ∃ u ∈ firstOfEachName os, u.name = o.name := by
  induction os with
  | nil => cases h
  | cons u rest ih =>
    rw [firstOfEachName]
    by_cases hn : u.name = o.name
    · exact ⟨u, List.mem_cons_self .., hn⟩
    · rcases List.mem_cons.mp h with rfl | h
      · exact absurd rfl hn
      · obtain ⟨w, hw, hwn⟩ := ih h
        refine ⟨w, List.mem_cons_of_mem _ (List.mem_filter.mpr ⟨hw, ?_⟩), hwn⟩
        simpa [hwn] using Ne.symm hn

/-- No name comes twice among the first objects of each name. -/
theorem nodup_names_firstOfEachName (os : List ObjectShape) :
    ((firstOfEachName os).map (·.name)).Nodup := by
  induction os with
  | nil => exact List.nodup_nil
  | cons o rest ih =>
    rw [firstOfEachName, List.map_cons, List.nodup_cons]
    refine ⟨fun h => ?_, ih.sublist (List.filter_sublist.map _)⟩
    obtain ⟨u, hu, hn⟩ := List.mem_map.mp h
    simpa [hn] using (List.mem_filter.mp hu).2

theorem ObjectShape.nodup_names_subtypes (o : ObjectShape) : (o.subtypes.map (·.name)).Nodup :=
  nodup_names_firstOfEachName _

theorem ObjectShape.mem_refers_iff {o u : ObjectShape} :
    u ∈ o.properties.filterMap (·.2.innerObject?) ↔ o.Refers u := by
  simp [Refers]

theorem ObjectShape.refers_of_mem_subtypes {o u : ObjectShape} (h : u ∈ o.subtypes) : o.Refers u :=
  mem_refers_iff.mp (mem_of_mem_firstOfEachName h)

/-- The subtype that a well-formed object keeps for a name is the one object that it refers to by it. -/
theorem ObjectShape.WellFormed.mem_subtypes_iff {o u : ObjectShape} (h : o.WellFormed) :
    u ∈ o.subtypes ↔ o.Refers u := by
  constructor
  · exact refers_of_mem_subtypes
  · intro hu
    obtain ⟨w, hw, hn⟩ := exists_mem_firstOfEachName (mem_refers_iff.mpr hu)
    rwa [← h.coherent (refers_of_mem_subtypes hw) hu hn]

end JsonShape
