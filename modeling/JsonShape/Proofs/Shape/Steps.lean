import JsonShape.Proofs.Agreement
import JsonShape.Proofs.Shape.Equality
import JsonShape.Proofs.Shape.Join

/-!
# Joining in steps

A join that is joined with further shapes is the join of all of them at once, and not merely equal to it:
names, depths and the order of properties are the same at every level. This rests on what a join depends on:
its first shape, and of the others what they are up to structural equality. Their order, their repetitions,
and whatever is equal to the first shape play no part.

No object may have a key twice. Empty objects are allowed anywhere.
-/

namespace JsonShape

/-! ### Keys of joins -/

namespace Shape

@[simp] theorem keyed_wrap_iff {t : Shape} {n : Nat} : (t.wrap n).Keyed ↔ t.Keyed := by
  induction n with
  | zero => rfl
  | succ n ih => rw [wrap, keyed_array_iff, ih]

theorem Keyed.get? {o : ObjectShape} (h : (Shape.object o).Keyed) {k : String} {t : Shape}
    (hk : o.get? k = some t) : t.Keyed :=
  (keyed_object_iff.mp h).2 k t (ObjectShape.mem_of_get? hk)

theorem Keyed.innerObject {t : Shape} (h : t.Keyed) {o : ObjectShape} (ho : t.innerObject? = some o) :
    (Shape.object o).Keyed := by
  rwa [← keyed_innermost_iff, innerObject?_eq_some_iff.mp ho] at h

theorem keyed_of_shapesAt? {os : List ObjectShape} (hos : ∀ o ∈ os, (Shape.object o).Keyed) {k : String}
    {us : List Shape} (h : shapesAt? k os = some us) : ∀ u ∈ us, u.Keyed := by
  intro u hu
  obtain ⟨o, ho, hk⟩ := exists_get?_of_shapesAt? h hu
  exact (hos o ho).get? hk

theorem keyed_orAnything {o : ObjectShape} (h : (Shape.object o).Keyed) : o.orAnything.Keyed := by
  rcases o.orAnything_cases with ⟨-, ho⟩ | ⟨-, ho⟩
  · exact ho ▸ .prim _
  · exact ho ▸ h

theorem keyed_joinAround {t x : Shape} (hx : x.Keyed) (others : List Shape) :
    (t.joinAround others x).Keyed := by
  unfold joinAround
  split
  · exact keyed_wrap_iff.mpr hx
  · exact .prim _

/-- What is inside the arrays of a join has no object with a key twice, if the first shape has none. -/
theorem keyed_joinInner {t : Shape} (ht : t.Keyed) (others : List Shape) :
    (t.joinInner others).Keyed := by
  induction t using Shape.induction generalizing others with
  | prim p => exact .prim _
  | array e ih => exact ih (keyed_array_iff.mp ht) others
  | object o ih =>
    obtain ⟨hk, hp⟩ := keyed_object_iff.mp ht
    rw [joinInner]
    cases allObjects? others with
    | none => exact .prim _
    | some us =>
      refine keyed_orAnything (keyed_object_iff.mpr ⟨hk.sublist ObjectShape.keys_joinWith_sublist, ?_⟩)
      intro k v hv
      obtain ⟨t, vs, hkt, -, rfl⟩ := ObjectShape.mem_properties_joinWith.mp hv
      unfold join
      split
      · exact hp k t hkt
      · exact keyed_joinAround (ih k t hkt (hp k t hkt) _) vs

theorem keyed_joinAll {t : Shape} (ht : t.Keyed) (others : List Shape) : (t.joinAll others).Keyed :=
  keyed_joinAround (keyed_joinInner ht _) others

theorem keyed_join {t : Shape} (ht : t.Keyed) (others : List Shape) : (t.join others).Keyed := by
  unfold join
  split
  · exact ht
  · exact keyed_joinAll ht others

end Shape

theorem ObjectShape.keyed_joinWith {o : ObjectShape} (ho : (Shape.object o).Keyed)
    (others : List ObjectShape) : (Shape.object (o.joinWith others)).Keyed := by
  obtain ⟨hk, hp⟩ := Shape.keyed_object_iff.mp ho
  refine Shape.keyed_object_iff.mpr ⟨hk.sublist keys_joinWith_sublist, fun k v hv => ?_⟩
  obtain ⟨t, vs, hkt, -, rfl⟩ := mem_properties_joinWith.mp hv
  exact Shape.keyed_join (hp k t hkt) vs

/-! ### Alike shapes -/

/-- The shapes are structurally equal, and no object in them has a key twice. -/
structure Shape.Like (t u : Shape) : Prop where
  left : t.Keyed
  right : u.Keyed
  same : t.same u = true

/-- The objects are structurally equal, and none in them has a key twice. -/
abbrev ObjectShape.Like (o u : ObjectShape) : Prop := (Shape.object o).Like (.object u)

namespace Shape.Like

variable {t u v : Shape}

theorem refl (h : t.Keyed) : t.Like t := ⟨h, h, same_refl h⟩

theorem symm (h : t.Like u) : u.Like t := ⟨h.right, h.left, same_symm h.left h.right h.same⟩

theorem arrayDepth_eq (h : t.Like u) : t.arrayDepth = u.arrayDepth := (same_iff_innermost.mp h.same).1

theorem innermost (h : t.Like u) : t.innermost.Like u.innermost :=
  ⟨keyed_innermost_iff.mpr h.left, keyed_innermost_iff.mpr h.right, (same_iff_innermost.mp h.same).2⟩

theorem toPrimitive_eq (h : t.Like u) : t.toPrimitive = u.toPrimitive := by
  have hs := h.same
  cases t <;> cases u <;> simp_all [Shape.same, toPrimitive]

theorem exists_object_iff (h : t.Like u) : (∃ o, t = .object o) ↔ ∃ o, u = .object o := by
  have hs := h.same
  cases t <;> cases u <;> simp_all [Shape.same]

end Shape.Like

/-- Alike objects have alike shapes for a key. -/
theorem ObjectShape.Like.exists_get? {o u : ObjectShape} (h : o.Like u) {k : String} {t : Shape}
    (ht : o.get? k = some t) : ∃ v, u.get? k = some v ∧ t.Like v := by
  have hs : o.same u = true := h.same
  obtain ⟨v, hv, htv⟩ := (same_iff.mp hs).2 k t (mem_of_get? ht)
  exact ⟨v, hv, h.left.get? ht, h.right.get? hv, htv⟩

/-- What alike shapes have in common holds of all others where it does, if it holds of the first shape. -/
theorem forall_iff_of_matched {t : Shape} {us us' : List Shape} (h : Matched Shape.Like (t :: us) (t :: us'))
    {P : Shape → Prop} (hP : ∀ u v, u.Like v → P u → P v) (ht : P t) :
    (∀ u ∈ us, P u) ↔ ∀ u ∈ us', P u := by
  have himp : ∀ {us us' : List Shape}, Matched Shape.Like (t :: us) (t :: us') →
      (∀ u ∈ us, P u) → ∀ u ∈ us', P u := by
    intro us us' h hus u hu
    obtain ⟨v, hv, hvu⟩ := h.right u (List.mem_cons_of_mem _ hu)
    exact hP v u hvu (List.forall_mem_cons.mpr ⟨ht, hus⟩ v hv)
  exact ⟨himp h, himp (h.symm fun _ _ => Shape.Like.symm)⟩

/-- Objects that match have matching shapes for a key. -/
theorem matched_shapesAt? {os os' : List ObjectShape} (h : Matched ObjectShape.Like os os') {k : String}
    {vs : List Shape} (hvs : shapesAt? k os = some vs) :
    ∃ vs', shapesAt? k os' = some vs' ∧ Matched Shape.Like vs vs' := by
  have heach : ∀ {os os' : List ObjectShape} {vs vs' : List Shape}, Matched ObjectShape.Like os os' →
      shapesAt? k os = some vs → shapesAt? k os' = some vs' → ∀ v ∈ vs, ∃ v' ∈ vs', v.Like v' := by
    intro os os' vs vs' h hvs hvs' v hv
    obtain ⟨o, ho, hkv⟩ := exists_get?_of_shapesAt? hvs hv
    obtain ⟨u, hu, hou⟩ := h.left o ho
    obtain ⟨w, hw, hvw⟩ := ObjectShape.Like.exists_get? hou hkv
    obtain ⟨w', hw', hkw⟩ := exists_mem_of_shapesAt? hvs' hu
    rw [hw, Option.some.injEq] at hkw
    exact ⟨w', hw', hkw ▸ hvw⟩
  have hkeys : ∀ u ∈ os', k ∈ u.keys := by
    intro u hu
    obtain ⟨o, ho, hou⟩ := h.right u hu
    obtain ⟨v, -, hkv⟩ := exists_mem_of_shapesAt? hvs ho
    obtain ⟨w, hw, -⟩ := ObjectShape.Like.exists_get? hou hkv
    exact ObjectShape.mem_keys_of_get? hw
  obtain ⟨vs', hvs'⟩ := exists_shapesAt? hkeys
  have hsymm := h.symm fun _ _ => Shape.Like.symm
  refine ⟨vs', hvs', heach h hvs hvs', fun v hv => ?_⟩
  obtain ⟨w, hw, hvw⟩ := heach hsymm hvs' hvs v hv
  exact ⟨w, hw, hvw.symm⟩

/-! ### What a join depends on -/

theorem shapesAt?_cons (k : String) (o : ObjectShape) (us : List ObjectShape) :
    shapesAt? k (o :: us) = (o.get? k).bind fun t => (shapesAt? k us).map (t :: ·) := by
  rw [shapesAt?, List.mapM_cons]
  cases o.get? k with
  | none => rfl
  | some t => cases h : us.mapM (·.get? k) <;> simp [shapesAt?, h]

/-- Objects join alike with lists that match, if the shapes of each key do. -/
theorem ObjectShape.joinWith_congr_of_properties {o : ObjectShape} {us us' : List ObjectShape}
    (h : Matched Like (o :: us) (o :: us')) (hjoin : ∀ k t vs vs', (k, t) ∈ o.properties →
      Matched Shape.Like (t :: vs) (t :: vs') → t.join vs = t.join vs') :
    o.joinWith us = o.joinWith us' := by
  obtain ⟨u, -, hou⟩ := h.left o (List.mem_cons_self ..)
  have hnodup := (Shape.keyed_object_iff.mp hou.left).1
  have hprops : joinProperties o.properties us = joinProperties o.properties us' := by
    rw [joinProperties_eq_filterMap, joinProperties_eq_filterMap]
    refine List.filterMap_congr fun ⟨k, t⟩ hk => ?_
    have ht := get?_of_mem hnodup hk
    have hcons (us : List ObjectShape) : shapesAt? k (o :: us) = (shapesAt? k us).map (t :: ·) := by
      rw [shapesAt?_cons, ht, Option.bind_some]
    cases hvs : shapesAt? k us with
    | some vs =>
      obtain ⟨ws, hws, hmatch⟩ := matched_shapesAt? h (by rw [hcons, hvs]; rfl)
      rw [hcons, Option.map_eq_some_iff] at hws
      obtain ⟨vs', hvs', rfl⟩ := hws
      simp only [hvs', Option.map_some, hjoin k t vs vs' hk hmatch]
    | none =>
      cases hvs' : shapesAt? k us' with
      | none => rfl
      | some vs' =>
        obtain ⟨ws, hws, -⟩ :=
          matched_shapesAt? (h.symm fun _ _ => Shape.Like.symm) (by rw [hcons, hvs']; rfl)
        rw [hcons, hvs] at hws
        cases hws
  cases o
  exact congrArg (ObjectShape.mk _ _) hprops

namespace Shape

variable {t : Shape} {us us' : List Shape}

theorem exists_allObjects?_iff {ts : List Shape} :
    (∃ os, allObjects? ts = some os) ↔ ∀ t ∈ ts, ∃ o, t = .object o := by
  constructor
  · rintro ⟨os, hos⟩ t ht
    rw [allObjects?_eq_some_iff.mp hos] at ht
    obtain ⟨o, -, rfl⟩ := List.mem_map.mp ht
    exact ⟨o, rfl⟩
  · intro h
    exact exists_mapM_eq_some fun t ht => (h t ht).imp fun o ho => toObject?_eq_some_iff.mpr ho

/-- Objects match if they do as shapes. -/
theorem matched_of_map {os os' : List ObjectShape}
    (h : Matched Like (os.map .object) (os'.map .object)) : Matched ObjectShape.Like os os' where
  left o ho := by
    obtain ⟨v, hv, hov⟩ := h.left _ (List.mem_map_of_mem ho)
    obtain ⟨u, hu, rfl⟩ := List.mem_map.mp hv
    exact ⟨u, hu, hov⟩
  right u hu := by
    obtain ⟨v, hv, hvu⟩ := h.right _ (List.mem_map_of_mem hu)
    obtain ⟨o, ho, rfl⟩ := List.mem_map.mp hv
    exact ⟨o, ho, hvu⟩

theorem joinAll_congr_of_inner (h : Matched Like (t :: us) (t :: us'))
    (hinner : t.joinInner (us.map innermost) = t.joinInner (us'.map innermost)) :
    t.joinAll us = t.joinAll us' := by
  have hdepth : us.all (·.arrayDepth = t.arrayDepth) = us'.all (·.arrayDepth = t.arrayDepth) := by
    rw [Bool.eq_iff_iff, List.all_eq_true, List.all_eq_true]
    exact forall_iff_of_matched h (fun v w hvw hv => by rwa [← hvw.arrayDepth_eq]) (by simp)
  rw [joinAll, joinAll, joinAround, joinAround, hdepth, hinner]

theorem join_congr_of_inner (h : Matched Like (t :: us) (t :: us'))
    (hinner : t.joinInner (us.map innermost) = t.joinInner (us'.map innermost)) :
    t.join us = t.join us' := by
  obtain ⟨u, -, htu⟩ := h.left t (List.mem_cons_self ..)
  have hsame : us.all (·.same t) = us'.all (·.same t) := by
    rw [Bool.eq_iff_iff, List.all_eq_true, List.all_eq_true]
    refine forall_iff_of_matched h (fun v w hvw hv => ?_) (same_refl htu.left)
    exact same_trans hvw.right hvw.left htu.left hvw.symm.same hv
  rw [join, join, hsame, joinAll_congr_of_inner h hinner]

theorem matched_map_innermost (h : Matched Like (t :: us) (t :: us')) :
    Matched Like (t.innermost :: us.map innermost) (t.innermost :: us'.map innermost) where
  left v hv := by
    obtain ⟨u, hu, rfl⟩ := List.mem_map.mp (show v ∈ (t :: us).map innermost from hv)
    obtain ⟨u', hu', huu⟩ := h.left u hu
    exact ⟨_, List.mem_map_of_mem (f := innermost) hu', huu.innermost⟩
  right v hv := by
    obtain ⟨u, hu, rfl⟩ := List.mem_map.mp (show v ∈ (t :: us').map innermost from hv)
    obtain ⟨u', hu', huu⟩ := h.right u hu
    exact ⟨_, List.mem_map_of_mem (f := innermost) hu', huu.innermost⟩

theorem joinInner_congr (h : Matched Like (t.innermost :: us) (t.innermost :: us')) :
    t.joinInner us = t.joinInner us' := by
  induction t using Shape.induction generalizing us us' with
  | prim p =>
    refine congrArg Shape.prim (eq_of_forall_ge_iff fun q => ?_)
    rw [Primitive.foldl_join_le_iff, Primitive.foldl_join_le_iff]
    refine and_congr_right fun hp => forall_iff_of_matched h (fun v w hvw hv => ?_) hp
    rwa [← hvw.toPrimitive_eq]
  | array e ih => exact ih h
  | object o ih =>
    have hobjects := forall_iff_of_matched h (P := fun u => ∃ o, u = .object o)
      (fun v w hvw => hvw.exists_object_iff.mp) ⟨o, rfl⟩
    rw [← exists_allObjects?_iff, ← exists_allObjects?_iff] at hobjects
    rw [joinInner, joinInner]
    cases hos : allObjects? us with
    | none =>
      cases hos' : allObjects? us' with
      | none => rfl
      | some os' =>
        obtain ⟨os, hos⟩ := hobjects.mpr ⟨os', hos'⟩
        simp_all
    | some os =>
      obtain ⟨os', hos'⟩ := hobjects.mp ⟨os, hos⟩
      simp only [hos']
      rw [allObjects?_eq_some_iff] at hos hos'
      subst hos hos'
      refine congrArg _ (ObjectShape.joinWith_congr_of_properties (matched_of_map h) ?_)
      intro k v vs vs' hk hmatch
      exact join_congr_of_inner hmatch (ih k v hk (matched_map_innermost hmatch))

/-- **What a join depends on**: its first shape, and the others up to order, repetition and structural
equality, to the first shape among them. -/
theorem join_congr (h : Matched Like (t :: us) (t :: us')) : t.join us = t.join us' :=
  join_congr_of_inner h (joinInner_congr (matched_map_innermost h))

theorem joinAll_congr (h : Matched Like (t :: us) (t :: us')) : t.joinAll us = t.joinAll us' :=
  joinAll_congr_of_inner h (joinInner_congr (matched_map_innermost h))

end Shape

theorem ObjectShape.joinWith_congr {o : ObjectShape} {us us' : List ObjectShape}
    (h : Matched Like (o :: us) (o :: us')) : o.joinWith us = o.joinWith us' :=
  joinWith_congr_of_properties h fun _ _ _ _ _ => Shape.join_congr

/-- An object alone is its own join. -/
theorem ObjectShape.joinWith_nil (o : ObjectShape) : o.joinWith [] = o := by
  cases o
  exact congrArg (ObjectShape.mk _ _) (joinProperties_nil _)

/-- An object is its join with objects that are equal to it. -/
theorem ObjectShape.joinWith_eq_self {o : ObjectShape} {us : List ObjectShape}
    (ho : (Shape.object o).Keyed) (hus : ∀ u ∈ us, (Shape.object u).Keyed)
    (hsame : ∀ u ∈ us, u.same o = true) : o.joinWith us = o := by
  have hmatch : Matched Like (o :: us) [o] :=
    .singleton (.refl ho) fun u hu => ⟨hus u hu, ho, hsame u hu⟩
  rw [joinWith_congr hmatch, joinWith_nil]

/-- Nothing comes back into an empty object. -/
theorem ObjectShape.isEmpty_joinWith {o : ObjectShape} (h : o.isEmpty = true) (us : List ObjectShape) :
    (o.joinWith us).isEmpty = true := by
  rw [isEmpty_iff] at h ⊢
  rw [properties_joinWith, h]
  rfl

/-! ### Joins of joins -/

theorem shapesAt?_append (k : String) (us vs : List ObjectShape) :
    shapesAt? k (us ++ vs) = (shapesAt? k us).bind fun xs => (shapesAt? k vs).map (xs ++ ·) := by
  induction us with
  | nil => simp [shapesAt?]
  | cons o rest ih =>
    rw [List.cons_append, shapesAt?_cons, shapesAt?_cons, ih]
    cases o.get? k with
    | none => rfl
    | some t =>
      cases shapesAt? k rest with
      | none => rfl
      | some xs => cases shapesAt? k vs <;> simp

theorem allObjects?_append (ts us : List Shape) :
    allObjects? (ts ++ us) = (allObjects? ts).bind fun xs => (allObjects? us).map (xs ++ ·) := by
  rw [allObjects?, List.mapM_append, ← allObjects?, ← allObjects?]
  cases allObjects? ts with
  | none => rfl
  | some xs => cases allObjects? us <;> rfl

/-- Properties joined with objects and then with others, if the shapes of each key are joined so. -/
theorem joinProperties_joinProperties {properties : List (String × Shape)} {us vs : List ObjectShape}
    (h : ∀ k t xs ys, (k, t) ∈ properties → shapesAt? k us = some xs → shapesAt? k vs = some ys →
      (t.join xs).join ys = t.join (xs ++ ys)) :
    joinProperties (joinProperties properties us) vs = joinProperties properties (us ++ vs) := by
  induction properties with
  | nil => rfl
  | cons p rest ih =>
    obtain ⟨k, t⟩ := p
    have ih := ih fun k t xs ys hk => h k t xs ys (List.mem_cons_of_mem _ hk)
    rw [joinProperties_cons, joinProperties_cons, shapesAt?_append]
    cases hxs : shapesAt? k us with
    | none => exact ih
    | some xs =>
      simp only [joinProperties_cons, Option.bind_some]
      cases hys : shapesAt? k vs with
      | none => exact ih
      | some ys =>
        simp only [Option.map_some, ih, h k t xs ys (List.mem_cons_self ..) hxs hys]

theorem ObjectShape.joinWith_joinWith_of_properties {o : ObjectShape} {us vs : List ObjectShape}
    (h : ∀ k t xs ys, (k, t) ∈ o.properties → shapesAt? k us = some xs → shapesAt? k vs = some ys →
      (t.join xs).join ys = t.join (xs ++ ys)) :
    (o.joinWith us).joinWith vs = o.joinWith (us ++ vs) := by
  cases o
  exact congrArg (ObjectShape.mk _ _) (joinProperties_joinProperties h)

namespace Shape

variable {t : Shape} {us vs : List Shape}

theorem joinInner_anything (others : List Shape) : Shape.anything.joinInner others = .anything :=
  congrArg Shape.prim (foldl_join_anything others)

theorem joinAll_anything (others : List Shape) : Shape.anything.joinAll others = .anything := by
  unfold joinAll joinAround
  rw [joinInner_anything]
  split <;> rfl

/-- In the place of an empty object, what accepts anything joins in the same way. -/
theorem joinInner_orAnything (o : ObjectShape) (others : List Shape) :
    o.orAnything.joinInner others = (Shape.object o).joinInner others := by
  rcases o.orAnything_cases with ⟨he, ho⟩ | ⟨-, ho⟩
  · rw [ho, joinInner_anything, joinInner]
    cases allObjects? others with
    | none => rfl
    | some us =>
      have hempty := ObjectShape.isEmpty_joinWith he us
      simp [ObjectShape.orAnything, hempty]
  · rw [ho]

@[simp] theorem arrayDepth_orAnything (o : ObjectShape) : o.orAnything.arrayDepth = 0 := by
  rcases o.orAnything_cases with ⟨-, h⟩ | ⟨-, h⟩ <;> rw [h] <;> rfl

@[simp] theorem arrayDepth_joinInner (t : Shape) (others : List Shape) :
    (t.joinInner others).arrayDepth = 0 := by
  induction t using Shape.induction with
  | prim p => rfl
  | array e ih => exact ih
  | object o => rw [joinInner]; cases allObjects? others <;> simp [arrayDepth]

theorem isEmpty_of_joinInner {o : ObjectShape} (h : (t.joinInner us).innerObject? = some o) :
    o.isEmpty = false := by
  induction t using Shape.induction with
  | prim p => cases h
  | array e ih => exact ih h
  | object r =>
    rw [joinInner] at h
    cases hos : allObjects? us with
    | none => rw [hos] at h; cases h
    | some os =>
      simp only [hos] at h
      rcases (r.joinWith os).orAnything_cases with ⟨-, hj⟩ | ⟨hne, hj⟩
      · rw [hj] at h; cases h
      · rw [hj] at h; cases h; exact hne

/-- No join of shapes is around an empty object. -/
theorem isEmpty_of_joinAll {o : ObjectShape} (h : (t.joinAll us).innerObject? = some o) :
    o.isEmpty = false := by
  unfold joinAll joinAround at h
  split at h
  · exact isEmpty_of_joinInner (by rwa [innerObject?_wrap] at h)
  · cases h

/-- A shape is its join with shapes that are equal to it, unless it is around an empty object. -/
theorem joinAll_eq_self (ht : t.Keyed) (hne : ∀ o, t.innerObject? = some o → o.isEmpty = false)
    (hus : ∀ u ∈ us, u.Keyed) (hsame : ∀ u ∈ us, u.same t = true) : t.joinAll us = t := by
  have hlike : ∀ u ∈ us, u.Like t := fun u hu => ⟨hus u hu, ht, hsame u hu⟩
  have hmatch : Matched Like (t.innermost :: us.map innermost) [t.innermost] :=
    .singleton (.refl (keyed_innermost_iff.mpr ht)) <|
      List.forall_mem_map.mpr fun u hu => (hlike u hu).innermost
  have hnil : t.joinInner [] = t.innermost := by
    rw [← joinInner_innermost]
    rcases t.innermost_cases with ⟨p, hp⟩ | ⟨o, ho⟩
    · rw [hp]; rfl
    · have := hne o (innerObject?_eq_some_iff.mpr ho)
      rw [ho, joinInner]
      simp [allObjects?, ObjectShape.joinWith_nil, ObjectShape.orAnything, this]
  have hdepth : us.all (·.arrayDepth = t.arrayDepth) = true :=
    List.all_eq_true.mpr fun u hu => by simp [(hlike u hu).arrayDepth_eq]
  rw [joinAll, joinAround, if_pos hdepth, joinInner_congr hmatch, hnil, wrap_innermost]

theorem joinAll_joinAll_of_inner (h : (t.joinInner (us.map innermost)).joinInner (vs.map innermost) =
    t.joinInner ((us ++ vs).map innermost)) : (t.joinAll us).joinAll vs = t.joinAll (us ++ vs) := by
  by_cases hdepth : us.all (·.arrayDepth = t.arrayDepth) = true
  · have hj : t.joinAll us = (t.joinInner (us.map innermost)).wrap t.arrayDepth := if_pos hdepth
    have hwrap : ((t.joinInner (us.map innermost)).wrap t.arrayDepth).joinInner (vs.map innermost) =
        t.joinInner ((us ++ vs).map innermost) := by
      rw [← h, ← joinInner_innermost, innermost_wrap, joinInner_innermost]
    rw [hj, joinAll, hwrap]
    simp only [joinAll, joinAround, arrayDepth_wrap, arrayDepth_joinInner, Nat.zero_add,
      List.all_append, hdepth, Bool.true_and]
  · have hj : t.joinAll us = .anything := if_neg hdepth
    have hall : t.joinAll (us ++ vs) = .anything := by
      refine if_neg ?_
      rw [List.all_append, Bool.and_eq_true]
      exact fun h => hdepth h.1
    rw [hj, hall, joinAll_anything]

theorem join_join_of_inner (ht : t.Keyed) (hus : ∀ u ∈ us, u.Keyed) (hvs : ∀ v ∈ vs, v.Keyed)
    (h : (t.joinInner (us.map innermost)).joinInner (vs.map innermost) =
      t.joinInner ((us ++ vs).map innermost)) : (t.join us).join vs = t.join (us ++ vs) := by
  by_cases hsame : us.all (·.same t) = true
  · -- the first shapes are all equal to `t`, and count for nothing in the join of all
    have hj : t.join us = t := if_pos hsame
    rw [hj]
    refine join_congr ⟨fun v hv => ⟨v, ?_, .refl ?_⟩, fun v hv => ?_⟩
    · rw [List.mem_cons] at hv ⊢
      exact hv.imp id (List.mem_append_right _)
    · exact List.forall_mem_cons.mpr ⟨ht, hvs⟩ v hv
    · rw [List.mem_cons, List.mem_append] at hv
      rcases hv with rfl | hv | hv
      · exact ⟨v, List.mem_cons_self .., .refl ht⟩
      · exact ⟨t, List.mem_cons_self .., ht, hus v hv, same_symm (hus v hv) ht (List.all_eq_true.mp hsame v hv)⟩
      · exact ⟨v, List.mem_cons_of_mem _ hv, .refl (hvs v hv)⟩
  · have hj : t.join us = t.joinAll us := if_neg hsame
    have hall : t.join (us ++ vs) = t.joinAll (us ++ vs) := by
      refine if_neg ?_
      rw [List.all_append, Bool.and_eq_true]
      exact fun h => hsame h.1
    rw [hj, hall, ← joinAll_joinAll_of_inner h]
    -- the join may turn out equal to all that is joined to it, and is kept then
    unfold join
    split
    · next hkeep =>
      refine (joinAll_eq_self (keyed_joinAll ht us) ?_ hvs (List.all_eq_true.mp hkeep)).symm
      exact fun o => isEmpty_of_joinAll
    · rfl

theorem joinInner_joinInner (ht : t.Keyed) (hus : ∀ u ∈ us, u.Keyed) (hvs : ∀ v ∈ vs, v.Keyed) :
    (t.joinInner us).joinInner vs = t.joinInner (us ++ vs) := by
  induction t using Shape.induction generalizing us vs with
  | prim p => simp [joinInner]
  | array e ih => exact ih (keyed_array_iff.mp ht) hus hvs
  | object o ih =>
    obtain ⟨-, hp⟩ := keyed_object_iff.mp ht
    rw [joinInner, joinInner, allObjects?_append]
    cases hxs : allObjects? us with
    | none => exact joinInner_anything vs
    | some xs =>
      rw [allObjects?_eq_some_iff] at hxs
      subst hxs
      have hsteps : ∀ ys, vs = ys.map object →
          (o.joinWith xs).joinWith ys = o.joinWith (xs ++ ys) := by
        rintro ys rfl
        refine ObjectShape.joinWith_joinWith_of_properties fun k t zs ws hk hzs hws => ?_
        have hzs := keyed_of_shapesAt? (List.forall_mem_map.mp hus) hzs
        have hws := keyed_of_shapesAt? (List.forall_mem_map.mp hvs) hws
        refine join_join_of_inner (hp k t hk) hzs hws ?_
        rw [List.map_append]
        refine ih k t hk (hp k t hk) (List.forall_mem_map.mpr fun z hz => ?_)
          (List.forall_mem_map.mpr fun w hw => ?_)
        · exact keyed_innermost_iff.mpr (hzs z hz)
        · exact keyed_innermost_iff.mpr (hws w hw)
      show (o.joinWith xs).orAnything.joinInner vs = _
      rw [joinInner_orAnything, joinInner]
      cases hys : allObjects? vs with
      | none => rfl
      | some ys => exact congrArg ObjectShape.orAnything (hsteps ys (allObjects?_eq_some_iff.mp hys))

/-- **Joining in steps**: a join joined with further shapes is the join of all. -/
theorem join_join (ht : t.Keyed) (hus : ∀ u ∈ us, u.Keyed) (hvs : ∀ v ∈ vs, v.Keyed) :
    (t.join us).join vs = t.join (us ++ vs) := by
  refine join_join_of_inner ht hus hvs ?_
  rw [List.map_append]
  refine joinInner_joinInner ht (List.forall_mem_map.mpr fun u hu => ?_)
    (List.forall_mem_map.mpr fun v hv => ?_)
  · exact keyed_innermost_iff.mpr (hus u hu)
  · exact keyed_innermost_iff.mpr (hvs v hv)

end Shape

/-- The join of an object with others, joined with further ones, is the join of all. -/
theorem ObjectShape.joinWith_joinWith {o : ObjectShape} {us vs : List ObjectShape}
    (ho : (Shape.object o).Keyed) (hus : ∀ u ∈ us, (Shape.object u).Keyed)
    (hvs : ∀ v ∈ vs, (Shape.object v).Keyed) :
    (o.joinWith us).joinWith vs = o.joinWith (us ++ vs) := by
  refine joinWith_joinWith_of_properties fun k t xs ys hk hxs hys => ?_
  exact Shape.join_join ((Shape.keyed_object_iff.mp ho).2 k t hk) (Shape.keyed_of_shapesAt? hus hxs)
    (Shape.keyed_of_shapesAt? hvs hys)

/-- Joining again with objects that have been joined changes nothing. -/
theorem ObjectShape.joinWith_joinWith_of_mem {o : ObjectShape} {us ws : List ObjectShape}
    (ho : (Shape.object o).Keyed) (hus : ∀ u ∈ us, (Shape.object u).Keyed) (hws : ∀ w ∈ ws, w ∈ o :: us) :
    (o.joinWith us).joinWith ws = o.joinWith us := by
  have hkeyed : ∀ u ∈ o :: us, (Shape.object u).Keyed := List.forall_mem_cons.mpr ⟨ho, hus⟩
  rw [joinWith_joinWith ho hus fun w hw => hkeyed w (hws w hw)]
  refine joinWith_congr ⟨fun u hu => ⟨u, ?_, .refl ?_⟩, fun u hu => ⟨u, ?_, .refl (hkeyed u hu)⟩⟩
  · rw [List.mem_cons, List.mem_append] at hu
    rcases hu with rfl | hu | hu
    · exact List.mem_cons_self ..
    · exact List.mem_cons_of_mem _ hu
    · exact hws u hu
  · rw [List.mem_cons, List.mem_append] at hu
    rcases hu with rfl | hu | hu
    · exact ho
    · exact hus u hu
    · exact hkeyed u (hws u hu)
  · rw [List.mem_cons] at hu ⊢
    exact hu.imp id (List.mem_append_left _)

end JsonShape
