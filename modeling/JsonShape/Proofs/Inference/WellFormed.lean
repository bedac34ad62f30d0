import JsonShape.Document.Lenient
import JsonShape.Proofs.Inference.Result
import JsonShape.Proofs.Shape.Consistency
import Mathlib

/-!
# Well-formed trees

Every object that the root of an inferred tree reaches is well-formed. In a scope this is the work of its
registry, since what a name stands for takes the place of every object of the name; the elements of an
array and the objects of a name are joined, which keeps it.
-/

namespace JsonShape

/-! ### Settled objects -/

variable {name : String} {depth : Nat}

/-- The object inside a shape, if there is one, is as it has to be under a name in an object at a depth. -/
structure Shape.HeldUnder (t : Shape) (name : String) (depth : Nat) : Prop where
  name_eq : ∀ {u}, t.innerObject? = some u → u.name = elementName^[t.arrayDepth] name
  depth_eq : ∀ {u}, t.innerObject? = some u → u.depth = depth + 1
  isEmpty_eq : ∀ {u}, t.innerObject? = some u → u.isEmpty = false
  consistent : ∀ {u}, t.innerObject? = some u → u.Consistent

theorem Shape.HeldUnder.proper {t : Shape} (h : t.HeldUnder name depth) : t.Proper :=
  proper_of_innerObject fun _ hu => ⟨h.isEmpty_eq hu, (h.consistent hu).proper⟩

/-- A primitive may be held under any name. -/
theorem Shape.heldUnder_prim (p : Primitive) : (Shape.prim p).HeldUnder name depth :=
  ⟨(nomatch ·), (nomatch ·), (nomatch ·), (nomatch ·)⟩

theorem Shape.heldUnder_object {o : ObjectShape} (hname : o.name = name) (hdepth : o.depth = depth + 1)
    (hne : o.isEmpty = false) (ho : o.Consistent) : (Shape.object o).HeldUnder name depth := by
  constructor <;> rintro u ⟨⟩
  · exact hname
  · exact hdepth
  · exact hne
  · exact ho

/-- An array is held under the name under whose element name its elements are. -/
theorem Shape.HeldUnder.array {e : Shape} (h : e.HeldUnder (elementName name) depth) :
    (Shape.array e).HeldUnder name depth :=
  ⟨h.name_eq, h.depth_eq, h.isEmpty_eq, h.consistent⟩

/-- The object of a scope is consistent if what has been bound is as it has to be under its keys. -/
theorem consistent_settledObject {bs : List (String × Shape)}
    (h : ∀ b ∈ bs, b.2.HeldUnder (deriveIdentifier b.1) depth) :
    (settledObject name depth bs).Consistent := by
  have hos : ∀ o ∈ innerObjects bs, o.depth = depth + 1 ∧ o.Consistent := by
    intro o ho
    obtain ⟨k, u, hu, ho⟩ := mem_innerObjects.mp ho
    exact ⟨(h _ hu).depth_eq ho, (h _ hu).consistent ho⟩
  refine ObjectShape.consistent_iff.mpr ⟨{
    keys_nodup := keys_settledObject ▸ nodup_keys_bound bs
    name_eq := ?name_eq
    depth_eq := ?depth_eq
    isEmpty_eq := ?isEmpty_eq
    coherent := ?coherent }, ?consistent⟩
  case name_eq =>
    intro k t j ht hj
    obtain ⟨u, o, hu, ho, hd, hs⟩ := exists_of_mem_settledObject ht hj
    rw [name_of_settled? hs, hd]
    exact (h _ hu).name_eq ho
  case depth_eq =>
    rintro j ⟨k, t, ht, hj⟩
    obtain ⟨u, o, -, -, -, hs⟩ := exists_of_mem_settledObject ht hj
    exact (consistent_of_settled? hos hs).1
  case isEmpty_eq =>
    rintro j ⟨k, t, ht, hj⟩
    obtain ⟨u, o, -, -, -, hs⟩ := exists_of_mem_settledObject ht hj
    exact isEmpty_of_settled? hs
  case coherent =>
    -- what a name stands for is one object
    rintro j j' ⟨k, t, ht, hj⟩ ⟨k', t', ht', hj'⟩ hn
    obtain ⟨u, o, -, -, -, hs⟩ := exists_of_mem_settledObject ht hj
    obtain ⟨u', o', -, -, -, hs'⟩ := exists_of_mem_settledObject ht' hj'
    rw [name_of_settled? hs, name_of_settled? hs'] at hn
    rw [hn, hs', Option.some.injEq] at hs
    exact hs.symm
  case consistent =>
    rintro j ⟨k, t, ht, hj⟩
    obtain ⟨u, o, -, -, -, hs⟩ := exists_of_mem_settledObject ht hj
    exact (consistent_of_settled? hos hs).2

/-- The element shape of shapes that may be held under a name may be held under it. -/
theorem heldUnder_joinElements {ts : List Shape} (h : ∀ t ∈ ts, t.HeldUnder name depth) :
    (joinElements ts).HeldUnder name depth := by
  rcases joinElements_cases ts with hmem | ⟨p, hp⟩ | ⟨o, us, hmem, hj⟩
  · exact h _ hmem
  · exact hp ▸ Shape.heldUnder_prim p
  · have ho := h _ (hmem o (List.mem_cons_self ..))
    have hus : ∀ u ∈ us, u.Consistent := fun u hu => (h _ (hmem u (List.mem_cons_of_mem _ hu))).consistent rfl
    rw [hj]
    rcases (o.joinWith us).orAnything_cases with ⟨-, ha⟩ | ⟨hne, ha⟩
    · exact ha ▸ Shape.heldUnder_prim _
    · rw [ha]
      exact Shape.heldUnder_object (ObjectShape.name_joinWith.trans (ho.name_eq rfl))
        (ObjectShape.depth_joinWith.trans (ho.depth_eq rfl)) hne
        (ObjectShape.consistent_joinWith (ho.consistent rfl) hus)

/-- The shape of a value is as it has to be under the name that the value is held under. -/
theorem heldUnder_of_shape {v : Value} {t : Shape} (h : v.shape name depth = .ok t) :
    t.HeldUnder name depth := by
  induction v using Value.induction generalizing name depth t with
  | null => cases h; exact Shape.heldUnder_prim _
  | bool b => cases h; exact Shape.heldUnder_prim _
  | int n => cases h; exact Shape.heldUnder_prim _
  | float x => cases h; exact Shape.heldUnder_prim _
  | str s => cases h; exact Shape.heldUnder_prim _
  | foreign kind => cases h
  | arr items ih =>
    obtain ⟨ts, hts, rfl⟩ := map_eq_ok_iff.mp h
    refine (heldUnder_joinElements fun t ht => ?_).array
    obtain ⟨v, hv, ht⟩ := exists_left_of_forall₂ (itemShapes_eq_ok_iff.mp hts) ht
    exact ih v hv ht
  | obj members ih =>
    rcases shape_obj_cases h with ⟨-, rfl⟩ | ⟨bs, hbs, hne, rfl⟩
    · exact Shape.heldUnder_prim _
    · have hheld := forall_mem_memberShapes (P := fun k t => t.HeldUnder (deriveIdentifier k) (depth + 1))
        hbs fun m hm k t ht => ih m hm ht
      exact Shape.heldUnder_object rfl rfl (isEmpty_settledObject hne) (consistent_settledObject hheld)

/-- What is bound for the members of an object is as it has to be under its keys. -/
theorem heldUnder_of_memberShapes {members : List (Key × Value)} {bs : List (String × Shape)}
    (h : memberShapes members depth = .ok bs) :
    ∀ b ∈ bs, b.2.HeldUnder (deriveIdentifier b.1) depth :=
  forall_mem_memberShapes (P := fun k t => t.HeldUnder (deriveIdentifier k) depth) h
    fun _ _ _ _ => heldUnder_of_shape

/-! ### Inferred trees -/

/-- The root of the tree of a pass that succeeds is the settled object of the shapes of its members. -/
theorem exists_of_succeeded [Json5Decoder] {r : Request} {signal : Signal} {tree : Tree}
    (h : (r.run signal).1 = .ok (.succeeded tree)) : ∃ members bs,
      r.source.members r.options = .ok members ∧ memberShapes members 0 = .ok bs ∧
        tree.root = settledObject r.rootName 0 bs := by
  obtain ⟨-, members, bs, hmembers, hbs, rfl⟩ := Request.tree_eq_ok_iff.mp (Request.tree_of_succeeded h)
  exact ⟨members, bs, hmembers, hbs, rfl⟩

/-- The root of an inferred tree is not inside anything. -/
theorem depth_root_of_succeeded [Json5Decoder] {r : Request} {signal : Signal} {tree : Tree}
    (h : (r.run signal).1 = .ok (.succeeded tree)) : tree.root.depth = 0 := by
  obtain ⟨_, bs, -, -, hroot⟩ := exists_of_succeeded h
  rw [hroot, settledObject]

/-- The root of an inferred tree is consistent. -/
theorem consistent_of_succeeded [Json5Decoder] {r : Request} {signal : Signal} {tree : Tree}
    (h : (r.run signal).1 = .ok (.succeeded tree)) : tree.root.Consistent := by
  obtain ⟨members, bs, -, hbs, hroot⟩ := exists_of_succeeded h
  rw [hroot]
  exact consistent_settledObject (heldUnder_of_memberShapes hbs)

/-- **Every inferred tree is well-formed**: whatever the document and the signal, each object that the root
of the tree reaches is well-formed, is not empty unless it is the root, and keeps for each name that its
properties refer by the one object that they refer to. -/
theorem wellFormed_of_succeeded [Json5Decoder] {r : Request} {signal : Signal} {tree : Tree}
    (h : (r.run signal).1 = .ok (.succeeded tree)) {o : ObjectShape} (ho : tree.root.Reaches o) :
    o.WellFormed ∧ (o.isEmpty = true → o = tree.root) ∧
      ∀ u, o.Refers u → u ∈ o.subtypes ∧ ∀ w ∈ o.subtypes, w.name = u.name → w = u := by
  obtain ⟨members, bs, -, hbs, hroot⟩ := exists_of_succeeded h
  have hconsistent : tree.root.Consistent := by
    rw [hroot]
    exact consistent_settledObject (heldUnder_of_memberShapes hbs)
  have hwf := hconsistent o ho
  refine ⟨hwf, fun hempty => ?_, fun u hu => ⟨hwf.mem_subtypes_iff.mpr hu, fun w hw hn => ?_⟩⟩
  · rcases ho.cases_tail with rfl | ⟨u, hu, hr⟩
    · rfl
    · rw [(hconsistent u hu).isEmpty_eq hr] at hempty
      cases hempty
  · exact hwf.coherent (hwf.mem_subtypes_iff.mp hw) hu hn

/-- Rows whose two keys have one identifier: what the rows have under either key is joined in both. -/
theorem wellFormed_of_succeeded_collision :
    letI := Lenient.decoder
    let request : Request := {
      source := .value (.obj [
        (.text "r", .arr [
          .obj [(.text "p", .obj [(.text "x", .int 1)]),
            (.text "P", .obj [(.text "x", .str "a"), (.text "y", .null)])],
          .obj [(.text "p", .obj [(.text "x", .int 2)]), (.text "P", .obj [(.text "x", .int 3)])]])])
      rootName := "Root" }
    let inner : ObjectShape := ⟨"P", 2, [("x", .anything)]⟩
    let row : ObjectShape := ⟨"RElement", 1, [("p", .object inner), ("P", .object inner)]⟩
    let root : ObjectShape := ⟨"Root", 0, [("r", .array (.object row))]⟩
    (request.run none).1 = .ok (.succeeded { root }) ∧ row.WellFormed ∧ inner ∈ row.subtypes := by
  generalize Lenient.decoder = json5
  intro request inner row root
  have hrun : (request.run none).1 = .ok (.succeeded { root }) := by cbv
  have hrow : root.Refers row := ⟨"r", .array (.object row), List.mem_singleton_self _, rfl⟩
  obtain ⟨hwf, -, hsub⟩ := wellFormed_of_succeeded hrun (.single hrow)
  exact ⟨hrun, hwf, (hsub inner ⟨"p", .object inner, List.mem_cons_self .., rfl⟩).1⟩
end JsonShape
