import JsonShape.Proofs.Inference.WellFormed
import JsonShape.Proofs.Value.Parts

/-!
# Keys of trees and of documents

Every key in an inferred tree is a key in its document. For one value this is how objects become shapes; what
several values come to is wider than what each of them has, and what is wider has no further keys, at any depth.
-/

namespace JsonShape

/-! ### Wider objects -/

/-- What is inside a wider shape, if it is an object, is wider than what is inside the other. -/
theorem Shape.exists_innerObject?_of_le {t u : Shape} (h : t ≤ u) {o : ObjectShape}
    (ho : u.innerObject? = some o) : ∃ r, t.innerObject? = some r ∧ r ≤ o := by
  have hinner := innermost_le_innermost h
  rw [innerObject?_eq_some_iff.mp ho] at hinner
  rcases t.innermost_cases with ⟨p, hp⟩ | ⟨r, hr⟩
  · rw [hp] at hinner
    exact absurd hinner not_prim_le_object
  · rw [hr] at hinner
    exact ⟨r, innerObject?_eq_some_iff.mpr hr, hinner⟩

namespace ObjectShape

variable {r s o : ObjectShape}

theorem Proper.of_reaches (h : r.Proper) (ho : r.Reaches o) : o.Proper := by
  induction ho with
  | refl => exact h
  | tail _ hu ih =>
    obtain ⟨k, t, ht, hu⟩ := hu
    exact ((ih.property ht).innerObject hu).2

/-- What a wider object refers to is wider than what the other refers to. -/
theorem exists_refers_of_le (h : r ≤ s) (hs : s.keys.Nodup) (ho : s.Refers o) : ∃ u, r.Refers u ∧ u ≤ o := by
  obtain ⟨k, t, ht, ho⟩ := ho
  obtain ⟨hkeys, hle⟩ := le_iff.mp h
  obtain ⟨v, hv⟩ := exists_get?_of_mem_keys (hkeys k (mem_keys.mpr ⟨t, ht⟩))
  obtain ⟨u, hu, huo⟩ := Shape.exists_innerObject?_of_le (hle k v t hv (get?_of_mem hs ht)) ho
  exact ⟨u, ⟨k, v, mem_of_get? hv, hu⟩, huo⟩

/-- So is what it reaches. -/
theorem exists_reaches_of_le (h : r ≤ s) (hs : s.Proper) (ho : s.Reaches o) : ∃ u, r.Reaches u ∧ u ≤ o := by
  induction ho with
  | refl => exact ⟨r, .refl, h⟩
  | tail hreaches hrefers ih =>
    obtain ⟨u, hu, hle⟩ := ih
    obtain ⟨w, hw, hwo⟩ := exists_refers_of_le hle (hs.of_reaches hreaches).keys_nodup hrefers
    exact ⟨w, hu.tail hw, hwo⟩

end ObjectShape

/-! ### Keys -/

/-- The text is a key of an object in the value, at any depth. -/
def Value.HasKey (v : Value) (k : String) : Prop :=
  ∃ members, .obj members ∈ v.parts ∧ ∃ m ∈ members, m.1 = .text k

/-- The text is a key of the object or of one that it reaches. -/
def ObjectShape.HasKey (o : ObjectShape) (k : String) : Prop := ∃ u, o.Reaches u ∧ k ∈ u.keys

variable {k : String}

/-- A wider object has no further keys. -/
theorem ObjectShape.HasKey.of_le {r s : ObjectShape} (h : s.HasKey k) (hle : r ≤ s) (hs : s.Proper) :
    r.HasKey k := by
  obtain ⟨o, ho, hk⟩ := h
  obtain ⟨u, hu, huo⟩ := exists_reaches_of_le hle hs ho
  exact ⟨u, hu, (le_iff.mp huo).1 k hk⟩

theorem Value.HasKey.arr {v : Value} (h : v.HasKey k) {items : List Value} (hv : v ∈ items) :
    (arr items).HasKey k := by
  obtain ⟨members, hmem, hk⟩ := h
  exact ⟨members, List.mem_cons_of_mem _ (mem_partsOfItems.mpr ⟨v, hv, hmem⟩), hk⟩

theorem Value.HasKey.obj {members : List (Key × Value)} {m : Key × Value} (h : m.2.HasKey k) (hm : m ∈ members) :
    (obj members).HasKey k := by
  obtain ⟨ms, hmem, hk⟩ := h
  exact ⟨ms, List.mem_cons_of_mem _ (mem_partsOfMembers.mpr ⟨m, hm, hmem⟩), hk⟩

theorem Value.hasKey_of_mem {members : List (Key × Value)} {m : Key × Value} (hm : m ∈ members)
    (hk : m.1 = .text k) : (obj members).HasKey k := ⟨members, List.mem_cons_self .., m, hm, hk⟩

/-- The keys of a settled object are bound in its scope, or are keys of objects that are. -/
theorem hasKey_of_settledObject {name : String} {depth : Nat} {bs : List (String × Shape)}
    (hbs : ∀ b ∈ bs, b.2.Proper) (h : (settledObject name depth bs).HasKey k) :
    k ∈ bs.map (·.1) ∨ ∃ b ∈ bs, ∃ o, b.2.innerObject? = some o ∧ o.HasKey k := by
  obtain ⟨u, hu, hk⟩ := h
  rcases hu.cases_head with rfl | ⟨j, ⟨key, t, ht, hj⟩, hju⟩
  · rw [keys_settledObject] at hk
    obtain ⟨b, hb, rfl⟩ := List.mem_map.mp hk
    exact .inl (List.mem_map_of_mem (mem_of_mem_bound hb))
  · obtain ⟨w, o, hw, ho, -, hs⟩ := exists_of_mem_settledObject ht hj
    have hos : ∀ o ∈ innerObjects bs, o.Proper := fun _ => proper_of_mem_innerObjects hbs
    have hmem : o ∈ innerObjects bs := mem_innerObjects.mpr ⟨key, w, hw, ho⟩
    obtain ⟨i, hi, heq⟩ := exists_isJoin_settled? hos hmem
    have hle : o ≤ j := by
      rw [hs] at heq
      split at heq
      · cases heq
      · rw [Option.some.inj heq]
        exact hi.le (List.mem_filter.mpr ⟨hmem, by simp⟩)
    have hjk : j.HasKey k := ⟨u, hju, hk⟩
    exact .inr ⟨(key, w), hw, o, ho, hjk.of_le hle (proper_of_settled? hos hs)⟩

/-- The keys in the settled object of the shapes of members are keys in the object of the members, if those in
the shapes are keys in the members' values. -/
theorem hasKey_of_memberShapes {members : List (Key × Value)} {bs : List (String × Shape)} {depth depth' : Nat}
    {name : String} (hbs : memberShapes members depth = .ok bs)
    (hm : ∀ m ∈ members, ∀ key t, m.2.shape (deriveIdentifier key) depth = .ok t →
      ∀ o, t.innerObject? = some o → o.HasKey k → m.2.HasKey k)
    (h : (settledObject name depth' bs).HasKey k) : (Value.obj members).HasKey k := by
  have hmembers := memberShapes_eq_ok_iff.mp hbs
  rcases hasKey_of_settledObject (proper_of_memberShapes hbs) h with hk | ⟨b, hb, o, ho, hk⟩
  · obtain ⟨b, hb, rfl⟩ := List.mem_map.mp hk
    obtain ⟨m, hmem, hkey, -⟩ := exists_left_of_forall₂ hmembers hb
    exact Value.hasKey_of_mem hmem hkey
  · obtain ⟨m, hmem, -, ht⟩ := exists_left_of_forall₂ hmembers hb
    exact (hm m hmem b.1 b.2 ht o ho hk).obj hmem

/-- The keys in the shape of a value are keys in the value. -/
theorem Value.hasKey_of_shape {v : Value} {name : String} {depth : Nat} {t : Shape}
    (h : v.shape name depth = .ok t) {o : ObjectShape} (ho : t.innerObject? = some o) (hk : o.HasKey k) :
    v.HasKey k := by
  induction v using Value.induction generalizing name depth t o with
  | null => cases h; cases ho
  | bool b => cases h; cases ho
  | int n => cases h; cases ho
  | float x => cases h; cases ho
  | str s => cases h; cases ho
  | foreign kind => cases h
  | arr items ih =>
    obtain ⟨ts, hts, rfl⟩ := map_eq_ok_iff.mp h
    have hproper := proper_of_itemShapes hts
    cases ts with
    | nil => cases ho
    | cons t ts =>
      -- the first item has the key already
      obtain ⟨r, hr, hle⟩ := Shape.exists_innerObject?_of_le (le_joinElements hproper (List.mem_cons_self ..)) ho
      obtain ⟨v, hv, ht⟩ := exists_left_of_forall₂ (itemShapes_eq_ok_iff.mp hts) (List.mem_cons_self ..)
      have hro := hk.of_le hle ((proper_joinElements hproper).innerObject ho).2
      exact (ih v hv ht hr hro).arr hv
  | obj members ih =>
    rcases shape_obj_cases h with ⟨-, rfl⟩ | ⟨bs, hbs, -, rfl⟩
    · cases ho
    · cases ho
      exact hasKey_of_memberShapes hbs (fun m hm _ _ ht _ ho hk => ih m hm ht ho hk) hk

/-- **Every key in an inferred tree is a key in its document**, of an object at some depth. -/
theorem hasKey_of_succeeded [Json5Decoder] {r : Request} {signal : Signal} {tree : Tree}
    (h : (r.run signal).1 = .ok (.succeeded tree)) (hk : tree.root.HasKey k) :
    ∃ members, r.source.members r.options = .ok members ∧ (Value.obj members).HasKey k := by
  obtain ⟨members, bs, hmembers, hbs, hroot⟩ := exists_of_succeeded h
  rw [hroot] at hk
  refine ⟨members, hmembers, hasKey_of_memberShapes hbs (fun _ _ _ _ ht _ ho hk => ?_) hk⟩
  exact Value.hasKey_of_shape ht ho hk

end JsonShape
