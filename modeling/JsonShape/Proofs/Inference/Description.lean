import JsonShape.Proofs.Inference.Elements
import JsonShape.Proofs.Shape.Scope

/-!
# The shapes of values

What classification yields, without its checkpoints and without its scopes: `Value.shape` is the shape of
a value, an object's being the settled object of the shapes of its members. A value has no shape only if
there is a foreign value or a key that is no text in it.
-/

namespace JsonShape

/-- Induction on a value: what an array or an object holds comes before it. -/
@[elab_as_elim]
theorem Value.induction {motive : Value → Prop} (null : motive .null) (bool : ∀ b, motive (.bool b))
    (int : ∀ n, motive (.int n)) (float : ∀ x, motive (.float x)) (str : ∀ s, motive (.str s))
    (arr : ∀ items : List Value, (∀ v ∈ items, motive v) → motive (.arr items))
    (obj : ∀ members : List (Key × Value), (∀ m ∈ members, motive m.2) → motive (.obj members))
    (foreign : ∀ kind, motive (.foreign kind)) (v : Value) : motive v :=
  @Value.rec motive (fun items => ∀ v ∈ items, motive v) (fun members => ∀ m ∈ members, motive m.2)
    (fun member => motive member.2) null bool int float str arr obj foreign
    (fun _ h => nomatch h)
    (fun _ _ hv hr => List.forall_mem_cons.mpr ⟨hv, hr⟩)
    (fun _ h => nomatch h)
    (fun _ _ hm hr => List.forall_mem_cons.mpr ⟨hm, hr⟩)
    (fun _ _ h => h) v

mutual
/-- The shape of a value that is found in an object at a depth, or why it has none. -/
def Value.shape : Value → String → Nat → Except Fault Shape
  | .null, _, _ => .ok .anything
  | .bool _, _, _ => .ok .anything
  | .int n, _, _ => .ok (.prim (classifyInt n))
  | .float _, _, _ => .ok (.prim .float)
  | .str _, _, _ => .ok (.prim .string)
  | .arr items, name, depth =>
    (itemShapes items (elementName name) depth).map fun ts => .array (joinElements ts)
  | .obj members, name, depth =>
    if members.isEmpty then .ok .anything
    else (memberShapes members (depth + 1)).map fun bs => .object (settledObject name (depth + 1) bs)
  | .foreign kind, _, _ => .error (.unsupportedValue kind.kind)
termination_by structural v => v
/-- The shapes of the items of an array. -/
def itemShapes : List Value → String → Nat → Except Fault (List Shape)
  | [], _, _ => .ok []
  | v :: rest, name, depth => do
    let t ← v.shape name depth
    return t :: (← itemShapes rest name depth)
termination_by structural items => items
/-- The shapes of the members of an object, by their keys. -/
def memberShapes : List (Key × Value) → Nat → Except Fault (List (String × Shape))
  | [], _ => .ok []
  | (key, v) :: rest, depth =>
    match key with
    | .other kind => .error (.unsupportedKey kind)
    | .text key => do
      let t ← v.shape (deriveIdentifier key) depth
      return (key, t) :: (← memberShapes rest depth)
termination_by structural members => members
end

variable {name : String} {depth : Nat}

/-! ### When there is a shape -/

theorem itemShapes_eq_ok_iff {items : List Value} {ts : List Shape} :
    itemShapes items name depth = .ok ts ↔ items.Forall₂ (fun v t => v.shape name depth = .ok t) ts := by
  induction items generalizing ts with
  | nil => simp [itemShapes, eq_comm]
  | cons v rest ih =>
    simp only [itemShapes, bind_eq_ok_iff, ih]
    constructor
    · rintro ⟨t, ht, us, hus, h⟩
      cases h
      exact .cons ht hus
    · intro h
      cases h with
      | cons ht hus => exact ⟨_, ht, _, hus, rfl⟩

theorem memberShapes_eq_ok_iff {members : List (Key × Value)} {bs : List (String × Shape)} :
    memberShapes members depth = .ok bs ↔ members.Forall₂ (fun m b =>
      m.1 = .text b.1 ∧ m.2.shape (deriveIdentifier b.1) depth = .ok b.2) bs := by
  induction members generalizing bs with
  | nil => simp [memberShapes, eq_comm]
  | cons m rest ih =>
    obtain ⟨key, v⟩ := m
    cases key with
    | other kind =>
      refine iff_of_false (fun h => nomatch h) fun h => ?_
      cases h with
      | cons h _ => cases h.1
    | text key =>
      simp only [memberShapes, bind_eq_ok_iff, ih]
      constructor
      · rintro ⟨t, ht, us, hus, h⟩
        cases h
        exact .cons ⟨rfl, ht⟩ hus
      · intro h
        cases h with
        | @cons _ b _ us hb hus =>
          obtain ⟨hk, ht⟩ := hb
          cases hk
          exact ⟨_, ht, us, hus, rfl⟩

/-- The shape of an object: anything, of the empty one, and otherwise the settled object of the shapes of
its members. -/
theorem shape_obj_cases {members : List (Key × Value)} {t : Shape}
    (h : (Value.obj members).shape name depth = .ok t) : members = [] ∧ t = .anything ∨
      ∃ bs, memberShapes members (depth + 1) = .ok bs ∧ bs ≠ [] ∧
        t = .object (settledObject name (depth + 1) bs) := by
  rw [Value.shape] at h
  split at h
  · next he =>
    cases h
    exact .inl ⟨List.isEmpty_iff.mp he, rfl⟩
  · next hne =>
    obtain ⟨bs, hbs, rfl⟩ := map_eq_ok_iff.mp h
    refine .inr ⟨bs, hbs, ?_, rfl⟩
    rintro rfl
    cases memberShapes_eq_ok_iff.mp hbs
    exact hne rfl

/-! ### Every shape is proper -/

/-- What is bound for the members of an object is proper if the members' shapes are. -/
theorem forall_mem_memberShapes {members : List (Key × Value)} {bs : List (String × Shape)}
    {P : String → Shape → Prop} (hbs : memberShapes members depth = .ok bs)
    (h : ∀ m ∈ members, ∀ k t, m.2.shape (deriveIdentifier k) depth = .ok t → P k t) :
    ∀ b ∈ bs, P b.1 b.2 := by
  intro b hb
  obtain ⟨m, hm, -, ht⟩ := exists_left_of_forall₂ (memberShapes_eq_ok_iff.mp hbs) hb
  exact h m hm b.1 b.2 ht

/-- The shape of a value is proper. -/
theorem proper_of_shape {v : Value} {t : Shape} (h : v.shape name depth = .ok t) : t.Proper := by
  induction v using Value.induction generalizing name depth t with
  | null => cases h; exact .prim _
  | bool b => cases h; exact .prim _
  | int n => cases h; exact .prim _
  | float x => cases h; exact .prim _
  | str s => cases h; exact .prim _
  | foreign kind => cases h
  | arr items ih =>
    obtain ⟨ts, hts, rfl⟩ := map_eq_ok_iff.mp h
    refine .array (proper_joinElements fun t ht => ?_)
    obtain ⟨v, hv, ht⟩ := exists_left_of_forall₂ (itemShapes_eq_ok_iff.mp hts) ht
    exact ih v hv ht
  | obj members ih =>
    rcases shape_obj_cases h with ⟨-, rfl⟩ | ⟨bs, hbs, hne, rfl⟩
    · exact .prim _
    · refine Shape.proper_object_iff.mpr ⟨isEmpty_settledObject hne, proper_settledObject ?_⟩
      exact forall_mem_memberShapes (P := fun _ t => t.Proper) hbs fun m hm k t ht => ih m hm ht

theorem proper_of_itemShapes {items : List Value} {ts : List Shape}
    (h : itemShapes items name depth = .ok ts) : ∀ t ∈ ts, t.Proper := by
  intro t ht
  obtain ⟨v, -, hv⟩ := exists_left_of_forall₂ (itemShapes_eq_ok_iff.mp h) ht
  exact proper_of_shape hv

theorem proper_of_memberShapes {members : List (Key × Value)} {bs : List (String × Shape)}
    (h : memberShapes members depth = .ok bs) : ∀ b ∈ bs, b.2.Proper :=
  forall_mem_memberShapes (P := fun _ t => t.Proper) h fun _ _ _ _ => proper_of_shape

/-! ### Classification yields shapes -/

/-- A scope becomes what its members make of it. -/
theorem buildScope_yields {members : Scope → Pass Scope} {r : Except Fault Scope}
    (h : (members { name, depth }).Yields r) :
    (buildScope name depth members).Yields (r.map Scope.shape) := by
  have hb := h.bind (f := fun scope => Pass.countObject >>= fun _ => pure scope.shape)
    (g := fun scope => .ok scope.shape) fun scope _ =>
      Pass.yields_countObject.bind_ok (Pass.yields_pure scope.shape)
  refine Pass.Yields.after_check ?_
  cases r <;> exact hb

mutual
theorem classify_yields : ∀ (v : Value) (name : String) (depth : Nat),
    (classify v name depth).Yields (v.shape name depth)
  | .null, _, _ => Pass.yields_pure _
  | .bool _, _, _ => Pass.yields_pure _
  | .int _, _, _ => Pass.yields_pure _
  | .float _, _, _ => Pass.yields_pure _
  | .str _, _, _ => Pass.yields_pure _
  | .foreign _, _, _ => Pass.yields_fail _
  | .arr items, name, depth => by
    rw [classify, Value.shape]
    refine Pass.Yields.after_check ?_
    have hts (ts : List Shape) := (elementShape_yields ts).map Shape.array
    have h := (classifyItems_yields items (elementName name) depth).bind fun ts _ => hts ts
    cases hr : itemShapes items (elementName name) depth <;> rw [hr] at h <;> exact h
  | .obj members, name, depth => by
    rw [classify, Value.shape]
    split
    · exact Pass.yields_pure _
    · obtain ⟨r, hr, hshape⟩ := bindMembers_yields members { name, depth := depth + 1 } []
        (Scope.reflects_nil name (depth + 1)) fun _ h => nomatch h
      have h := (buildScope_yields hr).map Shape.object
      rw [hshape] at h
      cases hm : memberShapes members (depth + 1) <;> simp only [hm] at h <;> exact h
termination_by structural v => v
theorem classifyItems_yields : ∀ (items : List Value) (name : String) (depth : Nat),
    (classifyItems items name depth).Yields (itemShapes items name depth)
  | [], _, _ => Pass.yields_pure _
  | v :: rest, name, depth =>
    (classify_yields v name depth).bind fun t _ =>
      (classifyItems_yields rest name depth).bind fun ts _ => Pass.yields_pure (t :: ts)
termination_by structural items => items
/-- What binding the members of an object yields, in a scope in which others have been bound. -/
theorem bindMembers_yields : ∀ (members : List (Key × Value)) (s : Scope) (bs : List (String × Shape)),
    s.Reflects bs → (∀ b ∈ bs, b.2.Proper) → ∃ r, (bindMembers members s).Yields r ∧
      r.map Scope.shape =
        (memberShapes members s.depth).map fun cs => settledObject s.name s.depth (bs ++ cs)
  | [], s, bs, hs, _ => by
    refine ⟨.ok s, Pass.yields_pure s, ?_⟩
    simp only [memberShapes, Except.map, List.append_nil, hs.shape_eq]
  | (.other kind, _) :: _, _, _, _, _ => ⟨_, Pass.yields_fail _, rfl⟩
  | (.text key, v) :: rest, s, bs, hs, hbs => by
    have hv := classify_yields v (deriveIdentifier key) s.depth
    cases ht : v.shape (deriveIdentifier key) s.depth with
    | error e =>
      rw [ht] at hv
      refine ⟨.error e, hv.bind (g := fun _ => .error e) (fun _ h => nomatch h), ?_⟩
      simp only [memberShapes, ht, bind, Except.bind, Except.map]
    | ok t =>
      rw [ht] at hv
      have htp := proper_of_shape ht
      obtain ⟨s', hs', hreflects, hname, hdepth⟩ := hs.bind hbs key htp
      obtain ⟨r, hr, hshape⟩ := bindMembers_yields rest s' (bs ++ [(key, t)]) hreflects fun b hb => by
        rcases List.mem_append.mp hb with hb | hb
        · exact hbs b hb
        · exact List.mem_singleton.mp hb ▸ htp
      refine ⟨r, hv.bind_ok (hs'.bind_ok hr), ?_⟩
      rw [hshape, hname, hdepth, memberShapes, ht]
      cases memberShapes rest s.depth <;>
        simp [bind, Except.bind, Except.map, pure, Except.pure, List.append_assoc]
termination_by structural members => members
end

/-- Building an object yields the settled object of the shapes of its members. -/
theorem buildObject_yields (members : List (Key × Value)) (name : String) (depth : Nat) :
    (buildObject members name depth).Yields
      ((memberShapes members depth).map (settledObject name depth)) := by
  obtain ⟨r, hr, hshape⟩ := bindMembers_yields members { name, depth } []
    (Scope.reflects_nil name depth) fun _ h => nomatch h
  exact hshape ▸ buildScope_yields hr

end JsonShape
