import JsonShape.Document.Lenient
import JsonShape.Model
import JsonShape.Proofs.Inference.WellFormed

/-!
# Reading dumped models

A reader for dumped models, and that it gives back the tree. It looks at nothing but the model: the objects
that a description refers to are read first, from its own list of subtypes, and each reference in its
properties is resolved in this list, where exactly one entry must have the name. So a model keeps all of an
inferred tree, though its properties hold names only; this rests on the tree's objects being consistent.
-/

namespace JsonShape.Model

/-! ### The reader -/

/-- The primitive of a name in a dumped model. -/
def primitive? (name : String) : Option Primitive :=
  [.integer, .longInteger, .float, .string, .anything].find? (·.name = name)

/-- The one object of a name, unless there is none or more than one. -/
def resolve? (subtypes : List ObjectShape) (name : String) : Option ObjectShape :=
  match subtypes.filter (·.name = name) with
  | [o] => some o
  | _ => none

/-- The text of a value that is one. -/
def text? : Value → Option String
  | .str s => some s
  | _ => none

/-- The count that a value gives. -/
def count? : Value → Option Nat
  | .int n => n.toNat?
  | _ => none

/-- The items of a value that is an array. -/
def items? : Value → Option (List Value)
  | .arr items => some items
  | _ => none

/-- The members of a value that is an object. -/
def members? : Value → Option (List (Key × Value))
  | .obj members => some members
  | _ => none

mutual
/-- The shape of a description in an object with some subtypes. -/
def toShape? (subtypes : List ObjectShape) : Value → Option Shape
  | .obj members => do
    match ← (Value.member? members "kind").bind text? with
    | "array" => (element? subtypes members).map .array
    | "object" =>
      let name ← (Value.member? members "name").bind text?
      (resolve? subtypes name).map .object
    | kind => (primitive? kind).map .prim
  | _ => none
termination_by structural v => v
/-- The shape that the element of an array is described by. -/
def element? (subtypes : List ObjectShape) : List (Key × Value) → Option Shape
  | [] => none
  | (key, v) :: rest => if key = .text "element" then toShape? subtypes v else element? subtypes rest
termination_by structural members => members
end

/-- The property of a description in an object with some subtypes. -/
def toProperty? (subtypes : List ObjectShape) (v : Value) : Option (String × Shape) := do
  let members ← members? v
  let key ← (Value.member? members "key").bind text?
  let t ← (Value.member? members "type").bind (toShape? subtypes)
  return (key, t)

mutual
/-- The object of a description. -/
def toObject? : Value → Option ObjectShape
  | .obj members => do
    let subtypes ← subtypes? members
    let name ← (Value.member? members "name").bind text?
    let depth ← (Value.member? members "depth").bind count?
    let described ← (Value.member? members "properties").bind items?
    let properties ← described.mapM (toProperty? subtypes)
    return ⟨name, depth, properties⟩
  | _ => none
termination_by structural v => v
/-- The objects that the subtypes of an object are described by. -/
def subtypes? : List (Key × Value) → Option (List ObjectShape)
  | [] => none
  | (key, v) :: rest => if key = .text "subtypes" then toObjects? v else subtypes? rest
termination_by structural members => members
/-- The objects of an array of descriptions. -/
def toObjects? : Value → Option (List ObjectShape)
  | .arr items => objects? items
  | _ => none
termination_by structural v => v
/-- The objects of some descriptions. -/
def objects? : List Value → Option (List ObjectShape)
  | [] => some []
  | v :: rest => do return (← toObject? v) :: (← objects? rest)
termination_by structural items => items
end

/-- The tree of a dumped model. -/
def toTree? (v : Value) : Option Tree := do
  let members ← members? v
  let scope ← (Value.member? members "namespace").bind text?
  let root ← (Value.member? members "root").bind toObject?
  return { root, scope }

/-! ### What is read back -/

/-- In a list without two objects of one name, each object is the one of its name. -/
theorem resolve?_name {os : List ObjectShape} (hnodup : (os.map (·.name)).Nodup) {o : ObjectShape} (ho : o ∈ os) :
    resolve? os o.name = some o := by
  have hone : os.filter (·.name = o.name) = [o] := by
    induction os with
    | nil => cases ho
    | cons u rest ih =>
      obtain ⟨hnew, hrest⟩ := List.nodup_cons.mp hnodup
      rcases List.mem_cons.mp ho with rfl | ho
      · rw [List.filter_cons_of_pos (by simp), List.filter_eq_nil_iff.mpr]
        intro w hw hn
        exact hnew (List.mem_map.mpr ⟨w, hw, of_decide_eq_true hn⟩)
      · have hne : u.name ≠ o.name := fun h => hnew (List.mem_map.mpr ⟨o, ho, h.symm⟩)
        rw [List.filter_cons_of_neg (by simpa using hne), ih hrest ho]
  rw [resolve?, hone]

/-- A shape is read back where the object inside it is resolved. -/
theorem toShape?_ofShape {subtypes : List ObjectShape} {t : Shape}
    (h : ∀ u, t.innerObject? = some u → resolve? subtypes u.name = some u) :
    toShape? subtypes (ofShape t) = some t := by
  induction t using Shape.induction with
  | prim p => cases p <;> rfl
  | array e ih =>
    have he : toShape? subtypes (ofShape e) = some e := ih h
    have helement : element? subtypes [(.text "kind", .str "array"), (.text "element", ofShape e)] = some e := by
      simp [element?, he]
    show (element? subtypes [(.text "kind", .str "array"), (.text "element", ofShape e)]).map Shape.array = _
    rw [helement]
    rfl
  | object o =>
    show (resolve? subtypes o.name).map Shape.object = _
    rw [h o rfl]
    rfl

/-- A property is read back where the object inside its shape is resolved. -/
theorem toProperty?_ofProperty {subtypes : List ObjectShape} {property : String × Shape}
    (h : ∀ u, property.2.innerObject? = some u → resolve? subtypes u.name = some u) :
    toProperty? subtypes (ofProperty property) = some property := by
  show (toShape? subtypes (ofShape property.2)).bind (fun t => some (property.1, t)) = _
  rw [toShape?_ofShape h]
  rfl

/-- Objects are read back if each is. -/
theorem objects?_map {os : List ObjectShape} (h : ∀ o ∈ os, toObject? (ofObject o) = some o) :
    objects? (os.map ofObject) = some os := by
  induction os with
  | nil => rfl
  | cons o rest ih =>
    obtain ⟨ho, hrest⟩ := List.forall_mem_cons.mp h
    simp [objects?, ho, ih hrest]

/-- The description of an object, with its subtypes described one by one. -/
theorem ofObject_eq (o : ObjectShape) : ofObject o =
    .record [("name", .str o.name), ("depth", .int o.depth), ("properties", .arr (o.properties.map ofProperty)),
      ("subtypes", .arr (o.subtypes.map ofObject))] := by
  rw [ofObject]
  simp only [List.map_attach_eq_pmap, List.pmap_eq_map]

/-- **An object is read back** if it is consistent. -/
theorem toObject?_ofObject {o : ObjectShape} (h : o.Consistent) : toObject? (ofObject o) = some o := by
  induction o using ObjectShape.refers_induction with
  | step o ih =>
    have hwf := h.wellFormed
    have hsubtypes : objects? (o.subtypes.map ofObject) = some o.subtypes := objects?_map fun u hu =>
      have hr := hwf.mem_subtypes_iff.mp hu
      ih u hr (h.of_refers hr)
    have hproperties : (o.properties.map ofProperty).mapM (toProperty? o.subtypes) = some o.properties := by
      refine mapM_eq_some_iff.mpr (List.forall₂_map_left_iff.mpr (List.forall₂_same.mpr fun p hp => ?_))
      refine toProperty?_ofProperty fun u hu => ?_
      have hr : o.Refers u := ⟨p.1, p.2, hp, hu⟩
      exact resolve?_name o.nodup_names_subtypes (hwf.mem_subtypes_iff.mpr hr)
    rw [ofObject_eq]
    show (objects? (o.subtypes.map ofObject)).bind (fun subtypes =>
      ((o.properties.map ofProperty).mapM (toProperty? subtypes)).bind fun properties =>
        some (ObjectShape.mk o.name o.depth properties)) = _
    rw [hsubtypes, Option.bind_some, hproperties]
    cases o
    rfl

/-- The tree of a pass is read back from its model. -/
theorem toTree?_ofTree {t : Tree} (h : t.root.Consistent) : toTree? (ofTree t) = some t := by
  show (toObject? (ofObject t.root)).bind (fun root => some (Tree.mk root t.scope)) = _
  rw [toObject?_ofObject h]
  rfl

/-- **Dumped models are lossless.** The tree of every pass that succeeds is read back from its model: the root
and the namespace, with all names, depths, orders and shapes. Each reference of an object in the tree is to the
one entry of its name among the subtypes of the same object. So no two trees of passes have one model. -/
theorem toTree?_of_succeeded [Json5Decoder] {r : Request} {signal : Signal} {t : Tree}
    (h : (r.run signal).1 = .ok (.succeeded t)) : toTree? (ofTree t) = some t ∧
      (∀ o u, t.root.Reaches o → o.Refers u → resolve? o.subtypes u.name = some u) ∧
      ∀ (r' : Request) (signal' : Signal) (t' : Tree), (r'.run signal').1 = .ok (.succeeded t') →
        ofTree t' = ofTree t → t' = t := by
  have hconsistent := consistent_of_succeeded h
  refine ⟨toTree?_ofTree hconsistent, fun o u ho hu => ?_, fun r' signal' t' h' heq => ?_⟩
  · exact resolve?_name o.nodup_names_subtypes ((hconsistent o ho).mem_subtypes_iff.mpr hu)
  · have hread := toTree?_ofTree (consistent_of_succeeded h')
    rw [heq, toTree?_ofTree hconsistent, Option.some.injEq] at hread
    exact hread.symm

/-- A model whose two properties refer to one object by its name, in an array and without one. -/
theorem toTree?_of_succeeded_shared :
    letI := Lenient.decoder
    let request : Request := {
      source := .value (.obj [(.text "p", .arr [.obj [(.text "x", .int 1)]]),
        (.text "pElement", .obj [(.text "x", .null)])])
      rootName := "Root"
      scope := "N" }
    let inner : ObjectShape := ⟨"PElement", 1, [("x", .anything)]⟩
    let tree : Tree :=
      { root := ⟨"Root", 0, [("p", .array (.object inner)), ("pElement", .object inner)]⟩, scope := "N" }
    (request.run none).1 = .ok (.succeeded tree) ∧ toTree? (ofTree tree) = some tree := by
  generalize Lenient.decoder = json5
  intro request inner tree
  have hrun : (request.run none).1 = .ok (.succeeded tree) := by cbv
  exact ⟨hrun, (toTree?_of_succeeded hrun).1⟩

end JsonShape.Model
