import JsonShape.Proofs.Shape.Steps
import Mathlib.Data.Option.Basic

/-!
# Comparing by hash

Structural equality as a relation on its own, and how it is computed where every object carries a hash. Two
shapes that are one object in memory are taken for equal without a further look; objects of different hashes
or of different size are taken for different; only then are their properties compared key by key. A dictionary
looks for an entry by the hash first. Where no object has a key twice, none of this makes a difference: hashes
are equal where shapes are, since the hash of an object does not depend on the order of its properties.
-/

namespace JsonShape

/-! ### Definitions -/

/-- Shapes are equal if they are the same primitive, arrays of equal elements, or objects with the same keys
and equal shapes for each key. -/
inductive Shape.Equal : Shape → Shape → Prop
  | prim (p : Primitive) : Equal (.prim p) (.prim p)
  | array {e f : Shape} : Equal e f → Equal (.array e) (.array f)
  | object {o u : ObjectShape} : (∀ k, k ∈ o.keys ↔ k ∈ u.keys) →
      (∀ k t v, o.get? k = some t → u.get? k = some v → Equal t v) → Equal (.object o) (.object u)

/-- How keys, primitives, tuples and sets are hashed. Of a set only the hashes of its elements count, in
whatever order. -/
structure Hashing (H : Type) where
  key : String → H
  kind : Primitive → H
  tuple : List H → H
  set : List H → H
  set_eq_of_perm : ∀ {l l' : List H}, l.Perm l' → set l = set l'

/-- Which of the shapes that are compared are one object in memory, by the keys on the way to them. -/
structure Sharing where
  identical : List String → Shape → Shape → Bool
  eq_of_identical : ∀ {path : List String} {t u : Shape}, identical path t u = true → t = u

variable {H : Type}

mutual
/-- The hash of a shape. -/
def Shape.hash (h : Hashing H) : Shape → H
  | .prim p => h.tuple [h.kind p]
  | .array e => h.tuple [e.hash h]
  | .object o => o.hash h
termination_by structural t => t
/-- The hash of an object: that of the set of its properties. -/
def ObjectShape.hash (h : Hashing H) : ObjectShape → H
  | ⟨_, _, properties⟩ => h.set (propertyHashes h properties)
termination_by structural o => o
/-- The hashes of properties, each a tuple of its key and its shape. -/
def propertyHashes (h : Hashing H) : List (String × Shape) → List H
  | [] => []
  | (key, t) :: rest => h.tuple [h.key key, t.hash h] :: propertyHashes h rest
termination_by structural properties => properties
end

mutual
/-- Compares two shapes, which are at the end of a path of keys. -/
def Shape.equals [DecidableEq H] (h : Hashing H) (shared : Sharing) (path : List String) (t u : Shape) : Bool :=
  shared.identical path t u ||
    match t, u with
    | .prim p, .prim q => p = q
    | .array e, .array f => e.equals h shared path f
    | .object o, .object w => o.equals h shared path w
    | _, _ => false
termination_by structural t
/-- Compares two objects: their hashes, their sizes, and at last their properties. -/
def ObjectShape.equals [DecidableEq H] (h : Hashing H) (shared : Sharing) (path : List String) :
    ObjectShape → ObjectShape → Bool
  | ⟨_, _, properties⟩, u =>
    if h.set (propertyHashes h properties) ≠ u.hash h || properties.length ≠ u.properties.length then false
    else propertiesEqual h shared path properties u
termination_by structural o => o
/-- Compares properties with what an object has for their keys, up to the first difference. -/
def propertiesEqual [DecidableEq H] (h : Hashing H) (shared : Sharing) (path : List String) :
    List (String × Shape) → ObjectShape → Bool
  | [], _ => true
  | (key, t) :: rest, u =>
    match u.get? key with
    | none => false
    | some v => t.equals h shared (key :: path) v && propertiesEqual h shared path rest u
termination_by structural properties => properties
end

/-- The keys of a dictionary after one more is put in: none is added if there is one that is the same object,
or one of its hash that is equal to it. -/
def insertKey [DecidableEq H] (h : Hashing H) (shared : Sharing) (keys : List Shape) (t : Shape) : List Shape :=
  if keys.any fun u => shared.identical [] u t || (u.hash h = t.hash h && u.equals h shared [] t) then keys
  else keys ++ [t]

/-- The keys of a dictionary into which shapes are put one after another. Which shapes are one object in memory
may be different for each of them. -/
def dictionaryKeys [DecidableEq H] (h : Hashing H) (shared : Nat → Sharing) (ts : List Shape) :
    List Shape :=
  ts.zipIdx.foldl (fun keys (t, i) => insertKey h (shared i) keys t) []

open Classical in
/-- The members of a list that are equal to no member before them, in order. -/
noncomputable def firstOfEachClass (ts : List Shape) : List Shape :=
  ts.zipIdx.filterMap fun (t, i) => if ∃ u ∈ ts.take i, u.Equal t then none else some t

/-! ### Equality as a relation -/

namespace Shape

variable {t u v : Shape}

theorem equal_array_iff {e f : Shape} : Equal (.array e) (.array f) ↔ e.Equal f :=
  ⟨fun h => by cases h; assumption, .array⟩

theorem equal_object_iff {o u : ObjectShape} : Equal (.object o) (.object u) ↔
    (∀ k, k ∈ o.keys ↔ k ∈ u.keys) ∧
      ∀ k t v, o.get? k = some t → u.get? k = some v → t.Equal v :=
  ⟨fun h => by cases h; constructor <;> assumption, fun ⟨hk, hv⟩ => .object hk hv⟩

/-- On shapes in which no object has a key twice, the relation is what `Shape.same` computes. -/
theorem equal_iff_same (ht : t.Keyed) (hu : u.Keyed) : t.Equal u ↔ t.same u = true := by
  induction t using Shape.induction generalizing u with
  | prim p =>
    cases u with
    | prim q =>
      simp only [Shape.same, decide_eq_true_eq]
      exact ⟨fun h => by cases h; rfl, fun h => h ▸ .prim p⟩
    | array f => exact iff_of_false (by rintro ⟨⟩) Bool.false_ne_true
    | object w => exact iff_of_false (by rintro ⟨⟩) Bool.false_ne_true
  | array e ih =>
    cases u with
    | prim q => exact iff_of_false (by rintro ⟨⟩) Bool.false_ne_true
    | array f =>
      rw [equal_array_iff, Shape.same]
      exact ih (keyed_array_iff.mp ht) (keyed_array_iff.mp hu)
    | object w => exact iff_of_false (by rintro ⟨⟩) Bool.false_ne_true
  | object o ih =>
    cases u with
    | prim q => exact iff_of_false (by rintro ⟨⟩) Bool.false_ne_true
    | array f => exact iff_of_false (by rintro ⟨⟩) Bool.false_ne_true
    | object w =>
      obtain ⟨hok, hop⟩ := keyed_object_iff.mp ht
      obtain ⟨hwk, hwp⟩ := keyed_object_iff.mp hu
      rw [equal_object_iff, Shape.same]
      constructor
      · rintro ⟨hkeys, hvals⟩
        have hperm : o.keys.Perm w.keys := (List.perm_ext_iff_of_nodup hok hwk).mpr hkeys
        refine ObjectShape.same_iff.mpr ⟨by simpa [ObjectShape.keys] using hperm.length_eq, fun k t hkt => ?_⟩
        obtain ⟨v, hv⟩ := ObjectShape.exists_get?_of_mem_keys ((hkeys k).mp (ObjectShape.mem_keys.mpr ⟨t, hkt⟩))
        have hequal := hvals k t v (ObjectShape.get?_of_mem hok hkt) hv
        exact ⟨v, hv, (ih k t hkt (hop k t hkt) (hwp k v (ObjectShape.mem_of_get? hv))).mp hequal⟩
      · intro hsame
        refine ⟨fun k => (ObjectShape.keys_perm_of_same hok hsame).mem_iff, fun k t v hkt hkv => ?_⟩
        have hmem := ObjectShape.mem_of_get? hkt
        obtain ⟨v', hv', htv⟩ := (ObjectShape.same_iff.mp hsame).2 k t hmem
        rw [hkv, Option.some.injEq] at hv'
        subst hv'
        exact (ih k t hmem (hop k t hmem) (hwp k v (ObjectShape.mem_of_get? hkv))).mpr htv

theorem equal_refl (ht : t.Keyed) : t.Equal t := (equal_iff_same ht ht).mpr (same_refl ht)

theorem equal_symm (h : t.Equal u) : u.Equal t := by
  induction h with
  | prim p => exact .prim p
  | array _ ih => exact .array ih
  | object hk _ ih => exact .object (fun k => (hk k).symm) fun k v t hv ht => ih k t v ht hv

/-- Equality is an equivalence on the shapes in which no object has a key twice. -/
theorem equivalence_equal : Equivalence fun t u : { t : Shape // t.Keyed } => t.1.Equal u.1 where
  refl t := equal_refl t.2
  symm h := equal_symm h
  trans {t u v} h h' := (equal_iff_same t.2 v.2).mpr <|
    same_trans t.2 u.2 v.2 ((equal_iff_same t.2 u.2).mp h) ((equal_iff_same u.2 v.2).mp h')

end Shape

/-! ### Hashes -/

variable {h : Hashing H}

theorem propertyHashes_eq_map (properties : List (String × Shape)) :
    propertyHashes h properties = properties.map fun p => h.tuple [h.key p.1, p.2.hash h] := by
  induction properties with
  | nil => rfl
  | cons p rest ih => rw [propertyHashes, ih, List.map_cons]

theorem ObjectShape.hash_eq (o : ObjectShape) : o.hash h =
    h.set (o.properties.map fun p => h.tuple [h.key p.1, p.2.hash h]) := by
  cases o
  rw [ObjectShape.hash, propertyHashes_eq_map]

/-- What is computed of the properties of an object, by its keys. -/
theorem ObjectShape.map_properties {α : Type} {o : ObjectShape} (ho : o.keys.Nodup) (f : String → Shape → α) :
    o.properties.map (fun p => some (f p.1 p.2)) = o.keys.map fun k => (o.get? k).map (f k) := by
  rw [keys, List.map_map]
  refine List.map_congr_left fun p hp => ?_
  rw [Function.comp_apply, get?_of_mem ho hp, Option.map_some]

/-- **Equal shapes have equal hashes.** -/
theorem Shape.Equal.hash_eq {t u : Shape} (ht : t.Keyed) (hu : u.Keyed) (hequal : t.Equal u) :
    t.hash h = u.hash h := by
  induction hequal with
  | prim p => rfl
  | array _ ih => rw [Shape.hash, Shape.hash, ih (keyed_array_iff.mp ht) (keyed_array_iff.mp hu)]
  | @object o w hkeys _ ih =>
    obtain ⟨hok, hop⟩ := keyed_object_iff.mp ht
    obtain ⟨hwk, hwp⟩ := keyed_object_iff.mp hu
    have hvalues : ∀ k ∈ o.keys, (o.get? k).map (fun t => h.tuple [h.key k, t.hash h]) =
        (w.get? k).map fun t => h.tuple [h.key k, t.hash h] := by
      intro k hk
      obtain ⟨t, ht⟩ := ObjectShape.exists_get?_of_mem_keys hk
      obtain ⟨v, hv⟩ := ObjectShape.exists_get?_of_mem_keys ((hkeys k).mp hk)
      have hth := ih k t v ht hv (hop k t (ObjectShape.mem_of_get? ht)) (hwp k v (ObjectShape.mem_of_get? hv))
      rw [ht, hv, Option.map_some, Option.map_some, hth]
    have hperm : o.keys.Perm w.keys := (List.perm_ext_iff_of_nodup hok hwk).mpr hkeys
    rw [Shape.hash, Shape.hash, ObjectShape.hash_eq, ObjectShape.hash_eq]
    -- the properties of the two objects come in different orders, so their hashes are lined up by the keys
    refine h.set_eq_of_perm ((List.map_perm_map_iff (Option.some_injective H)).mp ?_)
    rw [List.map_map, List.map_map]
    show (o.properties.map fun p => some _).Perm (w.properties.map fun p => some _)
    rw [ObjectShape.map_properties hok fun k t => h.tuple [h.key k, t.hash h],
      ObjectShape.map_properties hwk fun k t => h.tuple [h.key k, t.hash h], List.map_congr_left hvalues]
    exact hperm.map _

/-! ### Comparisons -/

variable [DecidableEq H] {shared : Sharing} {path : List String}

theorem propertiesEqual_congr {properties : List (String × Shape)} {u : ObjectShape}
    (hp : ∀ k t v, (k, t) ∈ properties → u.get? k = some v → t.equals h shared (k :: path) v = t.same v) :
    propertiesEqual h shared path properties u = propertiesSame properties u := by
  induction properties with
  | nil => rfl
  | cons p rest ih =>
    obtain ⟨k, t⟩ := p
    have hrest := ih fun k t v hk => hp k t v (List.mem_cons_of_mem _ hk)
    rw [propertiesEqual, propertiesSame]
    cases hv : u.get? k with
    | none => rfl
    | some v => simp only [hp k t v (List.mem_cons_self ..) hv, hrest]

/-- Shapes that are one object are equal, so that only others have to be compared. -/
theorem Shape.equals_eq_same_of_not_identical {t u : Shape} (ht : t.Keyed)
    (hother : shared.identical path t u = false → t.equals h shared path u = t.same u) :
    t.equals h shared path u = t.same u := by
  cases hid : shared.identical path t u with
  | false => exact hother hid
  | true => rw [Shape.equals.eq_def, hid, ← shared.eq_of_identical hid, same_refl ht, Bool.true_or]

theorem ObjectShape.equals_eq (o u : ObjectShape) : o.equals h shared path u =
    if o.hash h ≠ u.hash h || o.properties.length ≠ u.properties.length then false
    else propertiesEqual h shared path o.properties u := by
  cases o
  rfl

/-- **The short cuts make no difference**: shapes that are one object are equal, and objects of different hashes
or different sizes are not. -/
theorem Shape.equals_eq_same {t u : Shape} (ht : t.Keyed) (hu : u.Keyed) :
    t.equals h shared path u = t.same u := by
  induction t using Shape.induction generalizing u path with
  | prim p =>
    refine equals_eq_same_of_not_identical ht fun hid => ?_
    rw [Shape.equals.eq_def, hid, Bool.false_or]
    cases u <;> rfl
  | array e ih =>
    refine equals_eq_same_of_not_identical ht fun hid => ?_
    rw [Shape.equals.eq_def, hid, Bool.false_or]
    cases u with
    | prim q => rfl
    | array f => exact ih (keyed_array_iff.mp ht) (keyed_array_iff.mp hu)
    | object w => rfl
  | object o ih =>
    refine equals_eq_same_of_not_identical ht fun hid => ?_
    rw [Shape.equals.eq_def, hid, Bool.false_or]
    cases u with
    | prim q => rfl
    | array f => rfl
    | object w =>
      have hproperties : propertiesEqual h shared path o.properties w = propertiesSame o.properties w :=
        propertiesEqual_congr fun k t v hkt hv => ih k t hkt ((keyed_object_iff.mp ht).2 k t hkt) (hu.get? hv)
      have hsame : o.same w = (o.properties.length == w.properties.length && propertiesSame o.properties w) := by
        cases o
        rfl
      show o.equals h shared path w = o.same w
      rw [ObjectShape.equals_eq, hproperties]
      split
      · next hdiffers =>
        symm
        rw [Bool.eq_false_iff]
        intro hequal
        have hhash : o.hash h = w.hash h := ((equal_iff_same ht hu).mpr hequal).hash_eq ht hu
        have hlength := (ObjectShape.same_iff.mp hequal).1
        simp [hhash, hlength] at hdiffers
      · next halike =>
        rw [hsame]
        simp only [Bool.or_eq_true, decide_eq_true_eq, not_or, not_not] at halike
        simp [halike.2]

/-! ### Dictionaries -/

variable {ts : List Shape} {t : Shape}

/-- A further shape is kept if it is equal to none that is kept already. -/
theorem distinct_append (hts : ∀ u ∈ ts, u.Keyed) (ht : t.Keyed) : distinct (ts ++ [t]) =
    if (distinct ts).any (·.same t) then distinct ts else distinct ts ++ [t] := by
  induction ts with
  | nil => rfl
  | cons u rest ih =>
    rw [List.forall_mem_cons] at hts
    rw [List.cons_append, distinct, distinct, ih hts.2, List.any_cons]
    by_cases hut : u.same t = true
    · rw [hut, Bool.true_or, if_pos rfl]
      split
      · rfl
      · rw [List.filter_append, List.filter_singleton, hut]
        simp
    · -- what is equal to the further shape is not equal to the first, from which that is different
      have hfilter : ((distinct rest).filter (!u.same ·)).any (·.same t) = (distinct rest).any (·.same t) := by
        rw [List.any_filter, Bool.eq_iff_iff, List.any_eq_true, List.any_eq_true]
        refine exists_congr fun d => and_congr_right fun hd => ?_
        rw [Bool.and_eq_true, and_iff_right_iff_imp, Bool.not_eq_true', Bool.eq_false_iff]
        intro hdt hud
        exact hut (Shape.same_trans hts.1 (hts.2 d (mem_of_mem_distinct hd)) ht hud hdt)
      rw [Bool.eq_false_iff.mpr hut, Bool.false_or, hfilter]
      split
      · rfl
      · rw [List.filter_append, List.filter_singleton, Bool.eq_false_iff.mpr hut]
        rfl

theorem insertKey_eq {keys : List Shape} (hkeys : ∀ u ∈ keys, u.Keyed) (ht : t.Keyed) :
    insertKey h shared keys t = if keys.any (·.same t) then keys else keys ++ [t] := by
  have hany : (keys.any fun u => shared.identical [] u t || (u.hash h = t.hash h && u.equals h shared [] t)) =
      keys.any (·.same t) := by
    rw [Bool.eq_iff_iff, List.any_eq_true, List.any_eq_true]
    refine exists_congr fun u => and_congr_right fun hu => ?_
    have hu := hkeys u hu
    rw [Shape.equals_eq_same hu ht, Bool.or_eq_true, Bool.and_eq_true, decide_eq_true_eq]
    constructor
    · rintro (hid | ⟨-, hsame⟩)
      · rw [shared.eq_of_identical hid, Shape.same_refl ht]
      · exact hsame
    · exact fun hsame => .inr ⟨((Shape.equal_iff_same hu ht).mpr hsame).hash_eq hu ht, hsame⟩
  rw [insertKey, hany]

/-- The keys of a dictionary are the distinct shapes. -/
theorem dictionaryKeys_eq_distinct {shared : Nat → Sharing} (hts : ∀ t ∈ ts, t.Keyed) :
    dictionaryKeys h shared ts = distinct ts := by
  induction ts using List.reverseRecOn with
  | nil => rfl
  | append_singleton ts t ih =>
    rw [List.forall_mem_append, List.forall_mem_singleton] at hts
    have ih := ih hts.1
    rw [dictionaryKeys] at ih ⊢
    rw [List.zipIdx_append, List.foldl_append, ih, distinct_append hts.1 hts.2]
    exact insertKey_eq (fun u hu => hts.1 u (mem_of_mem_distinct hu)) hts.2

open Classical in
theorem firstOfEachClass_append (ts : List Shape) (t : Shape) : firstOfEachClass (ts ++ [t]) =
    if ∃ u ∈ ts, u.Equal t then firstOfEachClass ts else firstOfEachClass ts ++ [t] := by
  have hbefore : ∀ p ∈ ts.zipIdx, (if ∃ u ∈ (ts ++ [t]).take p.2, u.Equal p.1 then none else some p.1) =
      if ∃ u ∈ ts.take p.2, u.Equal p.1 then none else some p.1 := by
    intro p hp
    rw [List.take_append_of_le_length (List.snd_lt_of_mem_zipIdx hp).le]
  rw [firstOfEachClass, List.zipIdx_append, List.filterMap_append, List.filterMap_congr hbefore]
  by_cases hold : ∃ u ∈ ts, u.Equal t
  · simp [hold, firstOfEachClass]
  · simp [hold, firstOfEachClass]

/-- The distinct shapes are the first of each class of equal ones. -/
theorem distinct_eq_firstOfEachClass (hts : ∀ t ∈ ts, t.Keyed) : distinct ts = firstOfEachClass ts := by
  induction ts using List.reverseRecOn with
  | nil => rfl
  | append_singleton ts t ih =>
    rw [List.forall_mem_append, List.forall_mem_singleton] at hts
    have hany : (distinct ts).any (·.same t) = true ↔ ∃ u ∈ ts, u.Equal t := by
      rw [List.any_eq_true]
      constructor
      · rintro ⟨d, hd, hdt⟩
        have hd := mem_of_mem_distinct hd
        exact ⟨d, hd, (Shape.equal_iff_same (hts.1 d hd) hts.2).mpr hdt⟩
      · rintro ⟨u, hu, hut⟩
        obtain ⟨d, hd, hdu⟩ := exists_distinct_same hts.1 hu
        have hut := (Shape.equal_iff_same (hts.1 u hu) hts.2).mp hut
        exact ⟨d, hd, Shape.same_trans (hts.1 d (mem_of_mem_distinct hd)) (hts.1 u hu) hts.2 hdu hut⟩
    rw [distinct_append hts.1 hts.2, firstOfEachClass_append, ← ih hts.1]
    by_cases hold : ∃ u ∈ ts, u.Equal t
    · rw [if_pos hold, if_pos (hany.mpr hold)]
    · rw [if_neg hold, if_neg (mt hany.mp hold)]

end JsonShape
