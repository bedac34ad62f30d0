import JsonShape.Proofs.Inference.Description
import Mathlib

/-!
# Acceptance

Which values a shape accepts, by recursion on the shape. The order of widening is inclusion of what is
accepted, so that whatever happens to a shape after it was inferred, being joined with others or replaced
by what its name stands for, it goes on accepting the value it was inferred from. Hence every decoded
document is accepted by the object shape that is built from it.
-/

namespace JsonShape

/-! ### What shapes accept -/

/-- Whether a primitive accepts a value. -/
def Primitive.accepts : Primitive → Value → Bool
  | .anything, _ => true
  | .string, .str _ => true
  | .integer, .int n => -(2 ^ 31) ≤ n ∧ n ≤ 2 ^ 31 - 1
  | .longInteger, .int n => -(2 ^ 63) ≤ n ∧ n ≤ 2 ^ 63 - 1
  | .float, .int _ => true
  | .float, .float _ => true
  | _, _ => false

mutual
/-- Whether a shape accepts a value: an array shape arrays of values that its element shape accepts. -/
def Shape.accepts : Shape → Value → Bool
  | .prim p, v => p.accepts v
  | .array e, v =>
    match v with
    | .arr items => items.all fun item => e.accepts item
    | _ => false
  | .object o, v => o.accepts v
termination_by structural t => t
/-- Whether an object shape accepts a value: an object that has all its keys, with values that their shapes
accept. The value may have other keys. -/
def ObjectShape.accepts : ObjectShape → Value → Bool
  | ⟨_, _, properties⟩, v =>
    match v with
    | .obj members => propertiesAccept properties members
    | _ => false
termination_by structural o => o
/-- Whether an object's members have each of the given properties, with a value that its shape accepts. -/
def propertiesAccept : List (String × Shape) → List (Key × Value) → Bool
  | [], _ => true
  | (key, t) :: rest, members =>
    (match Value.member? members key with
      | some v => t.accepts v
      | none => false) && propertiesAccept rest members
termination_by structural properties => properties
end

theorem Shape.accepts_array_iff {e : Shape} {v : Value} :
    (Shape.array e).accepts v = true ↔ ∃ items, v = .arr items ∧ ∀ item ∈ items, e.accepts item = true := by
  cases v <;> simp [Shape.accepts]

theorem ObjectShape.accepts_iff {o : ObjectShape} {v : Value} : o.accepts v = true ↔
    ∃ members, v = .obj members ∧ ∀ k t, (k, t) ∈ o.properties →
      ∃ w, Value.member? members k = some w ∧ t.accepts w = true := by
  obtain ⟨name, depth, properties⟩ := o
  have each : ∀ (ps : List (String × Shape)) (members : List (Key × Value)),
      propertiesAccept ps members = true ↔ ∀ k t, (k, t) ∈ ps →
        ∃ w, Value.member? members k = some w ∧ t.accepts w = true := by
    intro ps members
    induction ps with
    | nil => simp [propertiesAccept]
    | cons p rest ih =>
      obtain ⟨k, t⟩ := p
      simp only [propertiesAccept, Bool.and_eq_true, ih, List.mem_cons, Prod.mk.injEq]
      constructor
      · rintro ⟨h, hr⟩ k' t' (⟨rfl, rfl⟩ | hm)
        · split at h
          · next w hw => exact ⟨w, hw, h⟩
          · cases h
        · exact hr k' t' hm
      · intro h
        obtain ⟨w, hw, ht⟩ := h k t (.inl ⟨rfl, rfl⟩)
        exact ⟨by rw [hw]; exact ht, fun k' t' hm => h k' t' (.inr hm)⟩
  cases v <;> simp [ObjectShape.accepts, each]

/-! ### The order is inclusion -/

theorem Primitive.accepts_of_le {p q : Primitive} (h : p ≤ q) {v : Value} (hv : p.accepts v = true) :
    q.accepts v = true := by
  rcases h with rfl | rfl | ⟨hp, hq, hr⟩
  · exact hv
  · rfl
  · cases p with
    | float => cases q <;> simp_all [isNumeric, rank]
    | string => cases hp
    | anything => cases hp
    | integer =>
      obtain ⟨n, rfl, hn⟩ : ∃ n, v = .int n ∧ -(2 ^ 31) ≤ n ∧ n ≤ 2 ^ 31 - 1 := by
        cases v <;> simp_all [accepts]
      cases q <;> (simp_all [accepts, isNumeric]; try omega)
    | longInteger =>
      obtain ⟨n, rfl, hn⟩ : ∃ n, v = .int n ∧ -(2 ^ 63) ≤ n ∧ n ≤ 2 ^ 63 - 1 := by
        cases v <;> simp_all [accepts]
      cases q <;> simp_all [accepts, isNumeric, rank]

namespace Shape

/-- What holds of the values that are accepted holds inside arrays too. -/
theorem accepts_wrap_of_imp {t u : Shape} (h : ∀ v, t.accepts v = true → u.accepts v = true) (n : Nat)
    {v : Value} (hv : (t.wrap n).accepts v = true) : (u.wrap n).accepts v = true := by
  induction n generalizing v with
  | zero => exact h v hv
  | succ n ih =>
    obtain ⟨items, rfl, hitems⟩ := accepts_array_iff.mp hv
    exact accepts_array_iff.mpr ⟨items, rfl, fun item hi => ih (hitems item hi)⟩

/-- A shape that is wider accepts what a shape accepts. -/
theorem accepts_of_le {t u : Shape} (hu : u.Keyed) (h : t ≤ u) {v : Value} (hv : t.accepts v = true) :
    u.accepts v = true := by
  induction (h : t.Widens u) generalizing v with
  | anything t => rfl
  | @inside t u hd hi =>
    rw [← t.wrap_innermost] at hv
    rw [← u.wrap_innermost, ← hd]
    exact accepts_wrap_of_imp (fun w _ => by rw [hi]; rfl) _ hv
  | @prim t u p q hd ht hq hpq =>
    rw [← t.wrap_innermost] at hv
    rw [← u.wrap_innermost, ← hd]
    refine accepts_wrap_of_imp (fun w hw => ?_) _ hv
    rw [ht] at hw
    rw [hq]
    exact Primitive.accepts_of_le hpq hw
  | @object t u r s hd ht hs hk _ ih =>
    rw [← t.wrap_innermost] at hv
    rw [← u.wrap_innermost, ← hd]
    obtain ⟨hsk, hsp⟩ := keyed_object_iff.mp (hs ▸ keyed_innermost_iff.mpr hu)
    refine accepts_wrap_of_imp (fun w hw => ?_) _ hv
    rw [ht] at hw
    rw [hs]
    obtain ⟨members, rfl, hr⟩ := ObjectShape.accepts_iff.mp (show r.accepts w = true from hw)
    refine ObjectShape.accepts_iff.mpr ⟨members, rfl, fun k y hy => ?_⟩
    obtain ⟨x, hx⟩ := ObjectShape.exists_get?_of_mem_keys (hk k (ObjectShape.mem_keys.mpr ⟨y, hy⟩))
    obtain ⟨m, hm, hxm⟩ := hr k x (ObjectShape.mem_of_get? hx)
    have hy' := ObjectShape.get?_of_mem hsk hy
    exact ⟨m, hm, ih k x y hx hy' (hsp k y hy) hxm⟩

end Shape

/-! ### Decoded documents -/

/-- A value as a decoder makes it: all keys are texts, no object has one twice, and nothing is foreign. -/
inductive Value.Decoded : Value → Prop
  | null : Decoded .null
  | bool (b : Bool) : Decoded (.bool b)
  | int (n : Int) : Decoded (.int n)
  | float (x : Decimal) : Decoded (.float x)
  | str (s : String) : Decoded (.str s)
  | arr {items : List Value} : (∀ v ∈ items, Decoded v) → Decoded (.arr items)
  | obj {members : List (Key × Value)} : (∀ m ∈ members, ∃ key, m.1 = .text key) →
      (members.map (·.1)).Nodup → (∀ m ∈ members, Decoded m.2) → Decoded (.obj members)

theorem Value.decoded_arr_iff {items : List Value} :
    (Value.arr items).Decoded ↔ ∀ v ∈ items, v.Decoded :=
  ⟨fun h => by cases h; assumption, .arr⟩

theorem Value.decoded_obj_iff {members : List (Key × Value)} : (Value.obj members).Decoded ↔
    (∀ m ∈ members, ∃ key, m.1 = .text key) ∧ (members.map (·.1)).Nodup ∧ ∀ m ∈ members, m.2.Decoded :=
  ⟨fun h => by cases h; exact ⟨‹_›, ‹_›, ‹_›⟩, fun ⟨hkeys, hnodup, hmembers⟩ => .obj hkeys hnodup hmembers⟩

/-- The value of a key that no other member has. -/
theorem Value.member?_of_mem {members : List (Key × Value)} (h : (members.map (·.1)).Nodup) {key : String}
    {v : Value} (hv : (.text key, v) ∈ members) : Value.member? members key = some v :=
  lookup_of_mem h hv

theorem accepts_classifyInt (n : Int) : (classifyInt n).accepts (.int n) = true := by
  unfold classifyInt
  split
  · next h => simpa [Primitive.accepts] using h
  · split
    · next h => simpa [Primitive.accepts] using h
    · rfl

/-! ### What is inferred accepts what it is inferred from -/

variable {name : String} {depth : Nat}

/-- The object of a scope accepts the members that have been bound in it. -/
theorem accepts_settledObject {members : List (Key × Value)} {bs : List (String × Shape)}
    (hkeys : (members.map (·.1)).Nodup) (hbs : ∀ b ∈ bs, b.2.Proper)
    (h : members.Forall₂ (fun m b => m.1 = .text b.1 ∧ b.2.accepts m.2 = true) bs) :
    (settledObject name depth bs).accepts (.obj members) = true := by
  refine ObjectShape.accepts_iff.mpr ⟨members, rfl, fun k t ht => ?_⟩
  obtain ⟨u, hu, rfl⟩ := mem_properties_settledObject ht
  obtain ⟨⟨key, v⟩, hm, hk, hv⟩ := exists_left_of_forall₂ h hu
  have hos : ∀ o ∈ innerObjects bs, o.Proper := fun o ho => proper_of_mem_innerObjects hbs ho
  refine ⟨v, Value.member?_of_mem hkeys (hk ▸ hm), ?_⟩
  refine Shape.accepts_of_le (proper_settle hos (hbs _ hu)).keyed (le_settle hos fun o ho => ?_) hv
  exact mem_innerObjects.mpr ⟨k, u, hu, ho⟩

/-- Members whose values have shapes that accept them, whatever the name and the depth, have shapes that
accept them. -/
theorem memberShapes_accept {members : List (Key × Value)} (hkeys : ∀ m ∈ members, ∃ key, m.1 = .text key)
    (h : ∀ m ∈ members, ∀ name depth, ∃ t, m.2.shape name depth = .ok t ∧ t.accepts m.2 = true)
    (depth : Nat) : ∃ bs, memberShapes members depth = .ok bs ∧
      members.Forall₂ (fun m b => m.1 = .text b.1 ∧ b.2.accepts m.2 = true) bs := by
  obtain ⟨bs, hbs⟩ : ∃ bs : List (String × Shape), members.Forall₂ (fun m b => (m.1 = .text b.1 ∧
      m.2.shape (deriveIdentifier b.1) depth = .ok b.2) ∧ b.2.accepts m.2 = true) bs := by
    refine exists_forall₂ fun m hm => ?_
    obtain ⟨key, hkey⟩ := hkeys m hm
    obtain ⟨t, ht, hacc⟩ := h m hm (deriveIdentifier key) depth
    exact ⟨(key, t), ⟨hkey, ht⟩, hacc⟩
  exact ⟨bs, memberShapes_eq_ok_iff.mpr (hbs.imp fun _ _ h => h.1),
    hbs.imp fun _ _ h => ⟨h.1.1, h.2⟩⟩

/-- A decoded value has a shape, which accepts it. -/
theorem shape_accepts {v : Value} (h : v.Decoded) (name : String) (depth : Nat) :
    ∃ t, v.shape name depth = .ok t ∧ t.accepts v = true := by
  induction h generalizing name depth with
  | null => exact ⟨_, rfl, rfl⟩
  | bool b => exact ⟨_, rfl, rfl⟩
  | int n => exact ⟨_, rfl, accepts_classifyInt n⟩
  | float x => exact ⟨_, rfl, rfl⟩
  | str s => exact ⟨_, rfl, rfl⟩
  | @arr items _ ih =>
    obtain ⟨ts, hts⟩ := exists_forall₂ fun v hv => ih v hv (elementName name) depth
    have hshapes := itemShapes_eq_ok_iff.mpr (hts.imp fun _ _ h => h.1)
    have hproper := proper_of_itemShapes hshapes
    refine ⟨.array (joinElements ts), by rw [Value.shape, hshapes]; rfl, ?_⟩
    refine Shape.accepts_array_iff.mpr ⟨items, rfl, fun item hi => ?_⟩
    obtain ⟨t, ht, -, hacc⟩ := exists_right_of_forall₂ hts hi
    exact Shape.accepts_of_le (proper_joinElements hproper).keyed (le_joinElements hproper ht) hacc
  | @obj members hkeys hnodup _ ih =>
    rw [Value.shape]
    split
    · exact ⟨_, rfl, rfl⟩
    · obtain ⟨bs, hbs, hacc⟩ := memberShapes_accept hkeys ih (depth + 1)
      rw [hbs]
      exact ⟨_, rfl, accepts_settledObject hnodup (proper_of_memberShapes hbs) hacc⟩

/-- **Inference is sound**: building the object shape of a decoded document yields a shape, and the shape
accepts the document. -/
theorem buildObject_accepts {members : List (Key × Value)} (h : (Value.obj members).Decoded)
    (name : String) (depth : Nat) : ∃ o, (buildObject members name depth).Yields (.ok o) ∧
      o.accepts (.obj members) = true := by
  obtain ⟨hkeys, hnodup, hmembers⟩ := Value.decoded_obj_iff.mp h
  obtain ⟨bs, hbs, hacc⟩ :=
    memberShapes_accept hkeys (fun m hm => shape_accepts (hmembers m hm)) depth
  refine ⟨settledObject name depth bs, ?_, ?_⟩
  · have hyields := buildObject_yields members name depth
    rwa [hbs] at hyields
  · exact accepts_settledObject hnodup (proper_of_memberShapes hbs) hacc

/-- Two keys of one identifier whose objects are merged, two whose objects have no key in common, and a
list of two records. -/
theorem buildObject_accepts_collisions :
    let members : List (Key × Value) := [
      (.text "q", .obj [(.text "x", .int 1), (.text "y", .str "s")]),
      (.text "p", .obj [(.text "a", .int 1)]),
      (.text "Q", .obj [(.text "x", .int 4294967296)]),
      (.text "P", .obj [(.text "b", .null)]),
      (.text "r", .arr [.obj [(.text "a", .int 1), (.text "b", .int 2)], .obj [(.text "a", .float .nan)]])]
    let root : ObjectShape := ⟨"Root", 0, [
      ("q", .object ⟨"Q", 1, [("x", .prim .longInteger)]⟩),
      ("p", .anything),
      ("Q", .object ⟨"Q", 1, [("x", .prim .longInteger)]⟩),
      ("P", .anything),
      ("r", .array (.object ⟨"RElement", 1, [("a", .prim .float)]⟩))]⟩
    (Value.obj members).Decoded ∧ (buildObject members "Root" 0).Yields (.ok root) ∧
      root.accepts (.obj members) = true := by
  intro members root
  have hdecoded : (Value.obj members).Decoded := by
    simp [members, Value.decoded_obj_iff, Value.decoded_arr_iff, Value.Decoded.null, Value.Decoded.int,
      Value.Decoded.float, Value.Decoded.str]
  obtain ⟨o, ho, haccepts⟩ := buildObject_accepts hdecoded "Root" 0
  have hroot : ((buildObject members "Root" 0).run none {}).1 = .ok root := by cbv
  rw [ho.run_none {}] at hroot
  cases hroot
  exact ⟨hdecoded, ho, haccepts⟩
end JsonShape
