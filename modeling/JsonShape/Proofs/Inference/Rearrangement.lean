import JsonShape.Proofs.Agreement
import JsonShape.Proofs.Inference.WellFormed
import Mathlib.Order.Antisymmetrization

/-!
# Rearranged documents

The members of an object may come in another order, and so may the items of an array, of which some may be
repeated: what is inferred stays the same up to structural equality, or stays a fault. Registration,
retirement and the joins of an array's items run through their inputs one after another, but what they come
to is a least upper bound of all of them, which depends on no order.
-/

namespace JsonShape

/-! ### Shapes that widen to each other -/

namespace Shape

variable {t u : Shape}

theorem wrap_le_wrap (h : t ≤ u) (hd : t.arrayDepth = u.arrayDepth) (n : Nat) : t.wrap n ≤ u.wrap n := by
  refine le_iff_innermost.mpr (.inr ⟨by simp [hd], ?_⟩)
  rw [innermost_wrap, innermost_wrap]
  exact innermost_le_innermost h

theorem arrayDepth_eq_of_antisymmRel (h : AntisymmRel (· ≤ ·) t u) : t.arrayDepth = u.arrayDepth := by
  rcases le_iff_innermost.mp h.1 with rfl | ⟨hd, -⟩
  · rw [anything_le_iff.mp h.2]
  · exact hd

/-- Of shapes that widen to each other, one is around an object if the other is, and the objects widen to
each other. -/
theorem innerObject?_of_antisymmRel (h : AntisymmRel (· ≤ ·) t u) {o : ObjectShape}
    (ho : t.innerObject? = some o) : ∃ r, u.innerObject? = some r ∧ AntisymmRel (· ≤ ·) o r := by
  have h₁ := innermost_le_innermost h.1
  have h₂ := innermost_le_innermost h.2
  rw [innerObject?_eq_some_iff.mp ho] at h₁ h₂
  rcases u.innermost_cases with ⟨q, hq⟩ | ⟨r, hr⟩
  · rw [hq] at h₂
    exact absurd h₂ not_prim_le_object
  · rw [hr] at h₁ h₂
    exact ⟨r, innerObject?_eq_some_iff.mpr hr, h₁, h₂⟩

end Shape

/-! ### What names stand for -/

variable {os us : List ObjectShape}

/-- What a name stands for widens if the objects of the name do. -/
theorem replacement_le {o u : ObjectShape} (hos : ∀ o ∈ os, o.Proper) (hus : ∀ u ∈ us, u.Proper)
    (ho : o ∈ os) (hu : u ∈ us) (hname : o.name = u.name)
    (hle : ∀ o ∈ os, ∃ u ∈ us, o.name = u.name ∧ o ≤ u) :
    replacement (settled? os o.name) ≤ replacement (settled? us u.name) := by
  obtain ⟨j, hj, hsj⟩ := exists_isJoin_settled? hos ho
  obtain ⟨m, hm, hsm⟩ := exists_isJoin_settled? hus hu
  have hjm : j ≤ m := hj.mono hm fun x hx => by
    obtain ⟨hx, hxn⟩ := List.mem_filter.mp hx
    obtain ⟨y, hy, hxy, hle⟩ := hle x hx
    refine ⟨y, List.mem_filter.mpr ⟨hy, ?_⟩, hle⟩
    rw [← hxy, ← hname]
    exact hxn
  rw [hsj, hsm]
  split
  · next hje => rw [if_pos (ObjectShape.isEmpty_of_le hjm hje)]
  · split
    · exact Shape.le_anything _
    · exact hjm

/-- Settling shapes that widen to each other among objects that widen keeps the order. -/
theorem settle_le_settle {t u : Shape} (hos : ∀ o ∈ os, o.Proper) (hus : ∀ u ∈ us, u.Proper)
    (hle : ∀ o ∈ os, ∃ u ∈ us, o.name = u.name ∧ o ≤ u) (h : AntisymmRel (· ≤ ·) t u)
    (ht : ∀ o, t.innerObject? = some o → o ∈ os) (hu : ∀ o, u.innerObject? = some o → o ∈ us)
    (hname : ∀ o r, t.innerObject? = some o → u.innerObject? = some r → o.name = r.name) :
    t.settle os ≤ u.settle us := by
  cases ho : t.innerObject? with
  | none =>
    have hr : u.innerObject? = none := by
      cases hr : u.innerObject? with
      | none => rfl
      | some r =>
        obtain ⟨o, ho', -⟩ := Shape.innerObject?_of_antisymmRel h.symm hr
        rw [ho] at ho'
        cases ho'
    rw [Shape.settle_of_none ho, Shape.settle_of_none hr]
    exact h.1
  | some o =>
    obtain ⟨r, hr, -⟩ := Shape.innerObject?_of_antisymmRel h ho
    have hdepth : ∀ x : Option ObjectShape, (replacement x).arrayDepth = 0 := fun x => by
      cases x <;> rfl
    rw [Shape.settle_of_some ho, Shape.settle_of_some hr, Shape.arrayDepth_eq_of_antisymmRel h]
    refine Shape.wrap_le_wrap ?_ ((hdepth _).trans (hdepth _).symm) _
    exact replacement_le hos hus (ht o ho) (hu r hr) (hname o r ho hr) hle

/-! ### Objects of scopes -/

/-- Bound properties of the same keys, of which the shapes widen to each other. -/
abbrev MatchedProperties : List (String × Shape) → List (String × Shape) → Prop :=
  Matched fun b c => b.1 = c.1 ∧ AntisymmRel (· ≤ ·) b.2 c.2

section SettledObject

variable {name : String} {depth : Nat} {bs cs : List (String × Shape)}

theorem MatchedProperties.symm (h : MatchedProperties bs cs) : MatchedProperties cs bs :=
  Matched.symm h fun _ _ ⟨hk, ht⟩ => ⟨hk.symm, ht.symm⟩

/-- Objects inside shapes under one key have one name, if the shapes widen to each other. -/
theorem name_eq_of_heldUnder {t u : Shape} {o r : ObjectShape} (ht : t.HeldUnder name depth)
    (hu : u.HeldUnder name depth) (h : AntisymmRel (· ≤ ·) t u) (ho : t.innerObject? = some o)
    (hr : u.innerObject? = some r) : o.name = r.name := by
  rw [ht.name_eq ho, hu.name_eq hr, Shape.arrayDepth_eq_of_antisymmRel h]

/-- The objects bound in one scope widen to objects of their names in the other. -/
theorem MatchedProperties.innerObjects (h : MatchedProperties bs cs)
    (hbs : ∀ b ∈ bs, b.2.HeldUnder (deriveIdentifier b.1) depth)
    (hcs : ∀ c ∈ cs, c.2.HeldUnder (deriveIdentifier c.1) depth) :
    ∀ o ∈ innerObjects bs, ∃ u ∈ innerObjects cs, o.name = u.name ∧ o ≤ u := by
  intro o ho
  obtain ⟨k, t, hb, ht⟩ := mem_innerObjects.mp ho
  obtain ⟨⟨k', u⟩, hc, rfl, htu⟩ := h.left _ hb
  obtain ⟨r, hr, hor⟩ := Shape.innerObject?_of_antisymmRel htu ht
  exact ⟨r, mem_innerObjects.mpr ⟨k, u, hc, hr⟩, name_eq_of_heldUnder (hbs _ hb) (hcs (k, u) hc) htu ht hr,
    hor.1⟩

/-- What scopes become in which matching properties have been bound. -/
theorem settledObject_le (hbk : (bs.map (·.1)).Nodup) (hck : (cs.map (·.1)).Nodup)
    (hbs : ∀ b ∈ bs, b.2.HeldUnder (deriveIdentifier b.1) depth)
    (hcs : ∀ c ∈ cs, c.2.HeldUnder (deriveIdentifier c.1) depth) (h : MatchedProperties bs cs) :
    settledObject name depth bs ≤ settledObject name depth cs := by
  refine ObjectShape.le_iff.mpr ⟨fun k hk => ?_, fun k v w hv hw => ?_⟩
  · rw [keys_settledObject, bound_eq_self hck, List.mem_map] at hk
    rw [keys_settledObject, bound_eq_self hbk, List.mem_map]
    obtain ⟨c, hc, rfl⟩ := hk
    obtain ⟨b, hb, hkey, -⟩ := h.right c hc
    exact ⟨b, hb, hkey⟩
  · obtain ⟨t, ht, rfl⟩ := mem_properties_settledObject (ObjectShape.mem_of_get? hv)
    obtain ⟨u, hu, rfl⟩ := mem_properties_settledObject (ObjectShape.mem_of_get? hw)
    obtain ⟨⟨k', u'⟩, hu', hk', htu⟩ := h.left _ ht
    -- a key has one shape
    have heq : u' = u := (Prod.mk.inj (List.inj_on_of_nodup_map hck hu' hu hk'.symm)).2
    subst heq
    refine settle_le_settle
      (fun o ho => proper_of_mem_innerObjects (fun b hb => (hbs b hb).proper) ho)
      (fun o ho => proper_of_mem_innerObjects (fun c hc => (hcs c hc).proper) ho)
      (h.innerObjects hbs hcs) htu (fun o ho => mem_innerObjects.mpr ⟨k, t, ht, ho⟩)
      (fun r hr => mem_innerObjects.mpr ⟨k, u', hu, hr⟩) fun o r ho hr => ?_
    exact name_eq_of_heldUnder (hbs _ ht) (hcs (k, u') hu) htu ho hr

end SettledObject

/-! ### Arrays -/

section Elements

variable {ts us : List Shape}

/-- Lists of shapes that match agree on whether their shapes are all equal, or none an array. -/
theorem joinable_of_matched (h : Matched (AntisymmRel (· ≤ ·)) ts us)
    (hts : (∀ t ∈ ts, ∀ u ∈ ts, t ≤ u) ∨ ∀ t ∈ ts, t.arrayDepth = 0) :
    (∀ t ∈ us, ∀ u ∈ us, t ≤ u) ∨ ∀ t ∈ us, t.arrayDepth = 0 := by
  refine hts.imp (fun hle u hu v hv => ?_) fun hd u hu => ?_
  · obtain ⟨t, ht, htu⟩ := h.right u hu
    obtain ⟨s, hs, hsv⟩ := h.right v hv
    exact htu.2.trans ((hle t ht s hs).trans hsv.1)
  · obtain ⟨t, ht, htu⟩ := h.right u hu
    rw [← Shape.arrayDepth_eq_of_antisymmRel htu]
    exact hd t ht

theorem joinElements_le (hts : ∀ t ∈ ts, t.Proper) (hus : ∀ u ∈ us, u.Proper)
    (h : Matched (AntisymmRel (· ≤ ·)) ts us) : joinElements ts ≤ joinElements us := by
  by_cases hne : ts = []
  · rw [hne, h.eq_nil_iff.mp hne]
  · by_cases hj : (∀ t ∈ us, ∀ u ∈ us, t ≤ u) ∨ ∀ t ∈ us, t.arrayDepth = 0
    · have hj' := joinable_of_matched (h.symm fun _ _ => AntisymmRel.symm) hj
      refine (isJoin_joinElements hts hne hj').mono
        (isJoin_joinElements hus (fun hu => hne (h.eq_nil_iff.mpr hu)) hj) fun t ht => ?_
      obtain ⟨u, hu, htu⟩ := h.left t ht
      exact ⟨u, hu, htu.1⟩
    · rw [joinElements_eq_anything hus hj]
      exact Shape.le_anything _

end Elements

/-! ### Values -/

/-- The values have no shape, or have shapes that widen to each other, whatever they are held under. -/
def Value.Alike (v w : Value) : Prop :=
  ∀ name depth, Agree (AntisymmRel (· ≤ ·)) (v.shape name depth) (w.shape name depth)

/-- Members with the same keys and alike values. -/
abbrev AlikeMembers : List (Key × Value) → List (Key × Value) → Prop :=
  Matched fun m n => m.1 = n.1 ∧ m.2.Alike n.2

/-- The text of a key that is one. -/
def Key.text? : Key → Option String
  | .text s => some s
  | .other _ => none

/-- The keys of members that are texts. -/
def textKeys (members : List (Key × Value)) : List String := members.filterMap (·.1.text?)

theorem Value.Alike.refl (v : Value) : v.Alike v := fun _ _ => .refl (fun _ => .refl _ _) _

theorem Value.Alike.trans {u v w : Value} (h : u.Alike v) (h' : v.Alike w) : u.Alike w :=
  fun name depth => (h name depth).trans (h' name depth) fun _ _ _ => .trans

/-- Alike values have shapes that widen to each other, if one has a shape. -/
theorem Value.Alike.exists_shape {v w : Value} (h : v.Alike w) (name : String) (depth : Nat) :
    (∀ t, v.shape name depth = .ok t → ∃ u, w.shape name depth = .ok u ∧ AntisymmRel (· ≤ ·) t u) ∧
      ∀ u, w.shape name depth = .ok u → ∃ t, v.shape name depth = .ok t ∧ AntisymmRel (· ≤ ·) t u :=
  ⟨fun _ => (h name depth).exists_right, fun _ => (h name depth).exists_left⟩

/-- Arrays of alike items are alike. -/
theorem alike_arr {items items' : List Value} (h : Matched Value.Alike items items') :
    (Value.arr items).Alike (.arr items') := by
  intro name depth
  have hitems : Agree (Matched (AntisymmRel (· ≤ ·))) (itemShapes items (elementName name) depth)
      (itemShapes items' (elementName name) depth) := by
    refine Agree.of_matched (F := fun (v : Value) t => v.shape (elementName name) depth = .ok t)
      (fun v t t' ht ht' => ?_) (fun _ => itemShapes_eq_ok_iff) (fun _ => itemShapes_eq_ok_iff)
      (h.imp fun v w hvw => hvw.exists_shape _ _)
    rw [ht] at ht'
    exact Except.ok.inj ht'
  refine hitems.map fun ts us hts hus hm => ?_
  have hts := proper_of_itemShapes hts
  have hus := proper_of_itemShapes hus
  have hle := joinElements_le hts hus hm
  have hge := joinElements_le hus hts (hm.symm fun _ _ => AntisymmRel.symm)
  have hd := Shape.arrayDepth_eq_of_antisymmRel ⟨hle, hge⟩
  exact ⟨Shape.Widens.array hle hd, Shape.Widens.array hge hd.symm⟩

/-- Alike members have matching shapes, if they have any. -/
theorem memberShapes_agree {members members' : List (Key × Value)} (h : AlikeMembers members members')
    (depth : Nat) : Agree MatchedProperties (memberShapes members depth) (memberShapes members' depth) := by
  refine Agree.of_matched (F := fun (m : Key × Value) (b : String × Shape) => m.1 = .text b.1 ∧
      m.2.shape (deriveIdentifier b.1) depth = .ok b.2) (fun m b b' hb hb' => ?_)
    (fun _ => memberShapes_eq_ok_iff) (fun _ => memberShapes_eq_ok_iff) (h.imp fun m n hmn => ?_)
  · obtain ⟨hk, ht⟩ := hb
    obtain ⟨hk', ht'⟩ := hb'
    have hkeys : b.1 = b'.1 := Key.text.inj (hk.symm.trans hk')
    rw [← hkeys, ht] at ht'
    exact Prod.ext hkeys (Except.ok.inj ht')
  · obtain ⟨hkey, hvalue⟩ := hmn
    refine ⟨fun b ⟨hk, ht⟩ => ?_, fun b ⟨hk, ht⟩ => ?_⟩
    · obtain ⟨u, hu, htu⟩ := (hvalue.exists_shape _ _).1 _ ht
      exact ⟨(b.1, u), ⟨hkey ▸ hk, hu⟩, rfl, htu⟩
    · obtain ⟨t, ht', htu⟩ := (hvalue.exists_shape _ _).2 _ ht
      exact ⟨(b.1, t), ⟨hkey ▸ hk, ht'⟩, rfl, htu⟩

/-- The keys bound for members are those of the members. -/
theorem map_fst_of_memberShapes {members : List (Key × Value)} {bs : List (String × Shape)} {depth : Nat}
    (h : memberShapes members depth = .ok bs) : bs.map (·.1) = textKeys members := by
  have hall := memberShapes_eq_ok_iff.mp h
  clear h
  induction hall with
  | nil => rfl
  | @cons m b rest cs hb _ ih =>
    obtain ⟨key, v⟩ := m
    obtain ⟨rfl, -⟩ := hb
    exact congrArg (b.1 :: ·) ih

/-- Alike members, of which no key comes twice, come to objects that widen to each other, if they have
shapes. -/
theorem settledObject_agree {members members' : List (Key × Value)} (h : AlikeMembers members members')
    (hkeys : (textKeys members).Nodup) (hkeys' : (textKeys members').Nodup) (name : String) (depth : Nat) :
    Agree (fun bs cs => AntisymmRel (· ≤ ·) (settledObject name depth bs) (settledObject name depth cs))
      (memberShapes members depth) (memberShapes members' depth) := by
  refine (memberShapes_agree h depth).of_ok fun bs cs hbs hcs hm => ?_
  rw [← map_fst_of_memberShapes hbs] at hkeys
  rw [← map_fst_of_memberShapes hcs] at hkeys'
  have hbs := heldUnder_of_memberShapes hbs
  have hcs := heldUnder_of_memberShapes hcs
  exact ⟨settledObject_le hkeys hkeys' hbs hcs hm, settledObject_le hkeys' hkeys hcs hbs hm.symm⟩

/-- Objects of alike members, of which no key comes twice, are alike. -/
theorem alike_obj {members members' : List (Key × Value)} (h : AlikeMembers members members')
    (hkeys : (textKeys members).Nodup) (hkeys' : (textKeys members').Nodup) :
    (Value.obj members).Alike (.obj members') := by
  by_cases he : members = []
  · rw [he, h.eq_nil_iff.mp he]
    exact .refl _
  · intro name depth
    have he' : members' ≠ [] := fun hm => he (h.eq_nil_iff.mpr hm)
    rw [Value.shape, Value.shape, if_neg (by simpa using he), if_neg (by simpa using he')]
    exact (settledObject_agree h hkeys hkeys' name (depth + 1)).map fun _ _ _ _ hm => hm

/-! ### Rearranging -/

/-- One value comes from the other by a rearrangement in one place: the members of an object or the items
of an array permuted, or an item repeated, at any depth. -/
inductive Value.Rearranges : Value → Value → Prop
  | members {ms ms' : List (Key × Value)} : ms.Perm ms' → Rearranges (.obj ms) (.obj ms')
  | items {vs vs' : List Value} : vs.Perm vs' → Rearranges (.arr vs) (.arr vs')
  | again {vs : List Value} {v : Value} : v ∈ vs → Rearranges (.arr vs) (.arr (v :: vs))
  | inMember {v w : Value} (pre : List (Key × Value)) (key : Key) (post : List (Key × Value)) :
      Rearranges v w → Rearranges (.obj (pre ++ (key, v) :: post)) (.obj (pre ++ (key, w) :: post))
  | inItem {v w : Value} (pre post : List Value) :
      Rearranges v w → Rearranges (.arr (pre ++ v :: post)) (.arr (pre ++ w :: post))

/-- No object in the value has a text twice as a key. -/
inductive Value.UniqueKeys : Value → Prop
  | scalar {v : Value} : v.children? = none → UniqueKeys v
  | arr {items : List Value} : (∀ v ∈ items, UniqueKeys v) → UniqueKeys (.arr items)
  | obj {members : List (Key × Value)} : (textKeys members).Nodup → (∀ m ∈ members, UniqueKeys m.2) →
      UniqueKeys (.obj members)

theorem Value.uniqueKeys_arr_iff {items : List Value} :
    (Value.arr items).UniqueKeys ↔ ∀ v ∈ items, v.UniqueKeys := by
  refine ⟨fun h => ?_, .arr⟩
  cases h with
  | scalar h => cases h
  | arr h => exact h

theorem Value.uniqueKeys_obj_iff {members : List (Key × Value)} : (Value.obj members).UniqueKeys ↔
    (textKeys members).Nodup ∧ ∀ m ∈ members, m.2.UniqueKeys := by
  refine ⟨fun h => ?_, fun ⟨hkeys, h⟩ => .obj hkeys h⟩
  cases h with
  | scalar h => cases h
  | obj hkeys h => exact ⟨hkeys, h⟩

/-- Rearranging keeps keys unique. -/
theorem Value.Rearranges.uniqueKeys {v w : Value} (h : v.Rearranges w) (hv : v.UniqueKeys) :
    w.UniqueKeys := by
  induction h with
  | members hp =>
    obtain ⟨hkeys, hall⟩ := uniqueKeys_obj_iff.mp hv
    exact .obj ((hp.filterMap _).nodup_iff.mp hkeys) fun m hm => hall m (hp.mem_iff.mpr hm)
  | items hp => exact .arr fun v hm => uniqueKeys_arr_iff.mp hv v (hp.mem_iff.mpr hm)
  | again hm =>
    have hall := uniqueKeys_arr_iff.mp hv
    exact .arr (List.forall_mem_cons.mpr ⟨hall _ hm, hall⟩)
  | @inMember v w pre key post _ ih =>
    obtain ⟨hkeys, hall⟩ := uniqueKeys_obj_iff.mp hv
    rw [List.forall_mem_append, List.forall_mem_cons] at hall
    refine .obj ?_ ?_
    · simpa [textKeys, List.filterMap_append, List.filterMap_cons] using hkeys
    · rw [List.forall_mem_append, List.forall_mem_cons]
      exact ⟨hall.1, ih hall.2.1, hall.2.2⟩
  | @inItem v w pre post _ ih =>
    have hall := uniqueKeys_arr_iff.mp hv
    rw [List.forall_mem_append, List.forall_mem_cons] at hall
    refine .arr ?_
    rw [List.forall_mem_append, List.forall_mem_cons]
    exact ⟨hall.1, ih hall.2.1, hall.2.2⟩

/-- Arrays with alike items, or objects with alike members. -/
def Value.AlikeInside : Value → Value → Prop
  | .arr items, .arr items' => Matched Value.Alike items items'
  | .obj members, .obj members' => AlikeMembers members members'
  | _, _ => False

theorem Value.AlikeInside.alike {v w : Value} (h : v.AlikeInside w) (hv : v.UniqueKeys)
    (hw : w.UniqueKeys) : v.Alike w := by
  cases v <;> cases w <;> try exact h.elim
  · exact alike_arr h
  · exact alike_obj h (uniqueKeys_obj_iff.mp hv).1 (uniqueKeys_obj_iff.mp hw).1

/-- What a value is rearranged to is alike inside. -/
theorem Value.Rearranges.alikeInside {v w : Value} (h : v.Rearranges w) (hv : v.UniqueKeys) :
    v.AlikeInside w := by
  induction h with
  | members hp => exact .of_mem_iff (fun _ => ⟨rfl, .refl _⟩) fun _ => hp.mem_iff
  | items hp => exact .of_mem_iff .refl fun _ => hp.mem_iff
  | @again vs v hm =>
    refine .of_mem_iff .refl fun u => ⟨List.mem_cons_of_mem v, fun hu => ?_⟩
    rcases List.mem_cons.mp hu with rfl | hu
    · exact hm
    · exact hu
  | @inMember v w pre key post h ih =>
    have hv : v.UniqueKeys := (uniqueKeys_obj_iff.mp hv).2 (key, v) (by simp)
    exact .of_replace (fun _ => ⟨rfl, .refl _⟩) ⟨rfl, (ih hv).alike hv (h.uniqueKeys hv)⟩ pre post
  | @inItem v w pre post h ih =>
    have hv : v.UniqueKeys := uniqueKeys_arr_iff.mp hv v (by simp)
    exact .of_replace .refl ((ih hv).alike hv (h.uniqueKeys hv)) pre post

/-- Rearranging an object again and again leaves alike members. -/
theorem alikeMembers_of_rearranges {members : List (Key × Value)} {w : Value}
    (h : Relation.ReflTransGen Value.Rearranges (.obj members) w) (hkeys : (Value.obj members).UniqueKeys) :
    w.UniqueKeys ∧ ∃ members', w = .obj members' ∧ AlikeMembers members members' := by
  induction h with
  | refl => exact ⟨hkeys, members, rfl, .of_mem_iff (fun _ => ⟨rfl, .refl _⟩) fun _ => Iff.rfl⟩
  | @tail v w _ hstep ih =>
    obtain ⟨hv, ms, rfl, hms⟩ := ih
    refine ⟨hstep.uniqueKeys hv, ?_⟩
    have hinside := hstep.alikeInside hv
    cases w with
    | obj ms' =>
      exact ⟨ms', rfl, hms.trans hinside fun _ _ _ h h' => ⟨h.1.trans h'.1, h.2.trans h'.2⟩⟩
    | _ => exact hinside.elim

/-- **Inference does not depend on order**: the members of objects and the items of arrays may be permuted
and items may be repeated, at any depth and any number of times; building the object shape, uncancelled,
ends in a fault as before, or yields a structurally equal shape. -/
theorem buildObject_rearranged {members members' : List (Key × Value)}
    (h : Relation.ReflTransGen Value.Rearranges (.obj members) (.obj members'))
    (hkeys : (Value.obj members).UniqueKeys) (name : String) (depth : Nat) (p p' : Progress) :
    Agree (fun o u => ObjectShape.same o u = true) ((buildObject members name depth).run none p).1
      ((buildObject members' name depth).run none p').1 := by
  obtain ⟨hkeys', ms, hms, halike⟩ := alikeMembers_of_rearranges h hkeys
  cases hms
  rw [(buildObject_yields members name depth).run_none, (buildObject_yields members' name depth).run_none]
  have hagree := settledObject_agree halike (Value.uniqueKeys_obj_iff.mp hkeys).1
    (Value.uniqueKeys_obj_iff.mp hkeys').1 name depth
  refine hagree.map fun bs cs hbs hcs hm => ?_
  exact Shape.same_of_le_of_ge (proper_settledObject (proper_of_memberShapes hbs)).keyed
    (proper_settledObject (proper_of_memberShapes hcs)).keyed hm.1 hm.2

/-- Three keys of one identifier, of whose objects nothing is left as soon as the second has been bound, or
the third; and a list in another order with a number repeated. -/
theorem buildObject_rearranged_retired :
    let members : List (Key × Value) := [
      (.text "p", .obj [(.text "x", .int 1)]),
      (.text "P", .obj [(.text "y", .int 1)]),
      (.text "p-", .obj [(.text "x", .int 1), (.text "y", .int 1)]),
      (.text "n", .arr [.int 1, .int 4294967296])]
    let members' : List (Key × Value) := [
      (.text "p", .obj [(.text "x", .int 1)]),
      (.text "p-", .obj [(.text "x", .int 1), (.text "y", .int 1)]),
      (.text "P", .obj [(.text "y", .int 1)]),
      (.text "n", .arr [.int 4294967296, .int 1, .int 1])]
    let root : ObjectShape := ⟨"Root", 0, [("p", .anything), ("P", .anything), ("p-", .anything),
      ("n", .array (.prim .longInteger))]⟩
    let root' : ObjectShape := ⟨"Root", 0, [("p", .anything), ("p-", .anything), ("P", .anything),
      ("n", .array (.prim .longInteger))]⟩
    ((buildObject members "Root" 0).run none {}).1 = .ok root ∧
      ((buildObject members' "Root" 0).run none {}).1 = .ok root' ∧ root.same root' = true := by
  intro members members' root root'
  have hsteps : Relation.ReflTransGen Value.Rearranges (.obj members) (.obj members') :=
    .head (.inMember (members.take 3) (.text "n") [] (.again (List.mem_cons_self ..))) <|
    .head (.inMember (members.take 3) (.text "n") [] (.items (.cons _ (.swap ..)))) <|
    .head (.inMember (members.take 3) (.text "n") [] (.items (.swap ..))) <|
    .single (.members (.cons _ (.swap ..)))
  have hkeys : (Value.obj members).UniqueKeys := by
    have hscalar (n : Int) : (Value.int n).UniqueKeys := .scalar rfl
    simp [members, Value.uniqueKeys_obj_iff, Value.uniqueKeys_arr_iff, textKeys, Key.text?, hscalar]
  have hroot : ((buildObject members "Root" 0).run none {}).1 = .ok root := by cbv
  have hroot' : ((buildObject members' "Root" 0).run none {}).1 = .ok root' := by cbv
  have hagree := buildObject_rearranged hsteps hkeys "Root" 0 {} {}
  rw [hroot, hroot'] at hagree
  exact ⟨hroot, hroot', hagree⟩

end JsonShape
