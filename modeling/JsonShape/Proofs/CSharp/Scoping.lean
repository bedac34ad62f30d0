import JsonShape.CSharp.ClassDecl
import JsonShape.Document.Lenient
import JsonShape.Proofs.CSharp.Names
import JsonShape.Proofs.Inference.WellFormed

/-!
# Scopes of classes

What the names in the declared classes mean. A name that is written in a class is looked up among the classes
inside it, then among those inside the class around it, and so on outwards. The classes of an inferred tree
are named so that the name in the type of each property means a class directly inside the property's own
class, the one that is declared for the very object in the property's shape.
-/

namespace JsonShape.CSharp

/-! ### Classes and the classes around them -/

/-- The class stands inside a root class, or is it; the classes around it are listed from the inside out. -/
inductive DeclaredIn (root : ClassDecl) : List ClassDecl → ClassDecl → Prop
  | root : DeclaredIn root [] root
  | nested {around : List ClassDecl} {d e : ClassDecl} :
      DeclaredIn root around d → e ∈ d.nested → DeclaredIn root (d :: around) e

/-- The class that a name means in the first of some classes, each of which stands in the next: the first of
the name on the way outwards. The root is outside of all. -/
def resolve? (root : ClassDecl) (scopes : List ClassDecl) (name : String) : Option ClassDecl :=
  (scopes.flatMap (·.nested) ++ [root]).find? (·.name = name)

/-- The class is declared for an object shape, within classes that are listed from the inside out. -/
def ClassDecl.IsFor (d : ClassDecl) (o : ObjectShape) (around : List ClassDecl) : Prop :=
  ∃ summary, d = declare o d.name summary (around.map (·.name)).reverse

/-- The names in a class that is declared for an object shape are chosen well. -/
structure ClassDecl.WellScoped (d : ClassDecl) (o : ObjectShape) (root : ClassDecl)
    (around : List ClassDecl) : Prop where
  /-- The class, its members and the classes directly inside it have different names. -/
  names_nodup : (d.name :: (d.members.map (·.name) ++ d.nested.map (·.name))).Nodup
  /-- A class directly inside has the name of no class further out. -/
  name_ne : ∀ e ∈ d.nested, ∀ c ∈ around, e.name ≠ c.name
  /-- There is one member for each key. -/
  keys_eq : d.members.map (·.key) = o.keys
  /-- Each property has a member with a name of its own, and its type names the class that is declared for
  the object in the property's shape, if there is one. -/
  member : ∀ k t, (k, t) ∈ o.properties → ∃ m ∈ d.members, m.key = k ∧
    (memberNames o d.name).lookup k = some m.name ∧ m.type.rank = t.arrayDepth ∧
    (∀ p, t.innermost = .prim p → m.type.base = .primitive p) ∧
    ∀ u, t.innerObject? = some u → ∃ e ∈ d.nested, m.type.base = .named e.name ∧
      resolve? root (d :: around) e.name = some e ∧ e.IsFor u (d :: around)
  /-- Whatever is looked up for the classes directly inside is there. -/
  lookups : ∀ u ∈ o.subtypes, ∃ k t ref name, o.referencingKey? u.name = some k ∧ o.get? k = some t ∧
    t.innerObject? = some u ∧ (memberNames o d.name).lookup k = some ref ∧
    (nestedNames o ((around.map (·.name)).reverse ++ d.name :: (memberNames o d.name).map (·.2))).lookup
      u.name = some name

/-! ### Declarations -/

variable {o : ObjectShape} {name summary : String} {enclosing : List String}

/-- A declaration, with the classes inside it as a list over the objects that the shape refers to. -/
theorem declare_eq (o : ObjectShape) (name summary : String) (enclosing : List String) :
    declare o name summary enclosing =
      let members := memberNames o name
      let nested := nestedNames o (enclosing ++ name :: members.map (·.2))
      { name, summary, depth := o.depth
        members := o.properties.map fun (key, t) =>
          { key, type := .ofShape nested t, name := (members.lookup key).getD "" }
        nested := o.subtypes.map fun u =>
          declare u ((nested.lookup u.name).getD "") (nestedSummary o members u) (enclosing ++ [name]) } := by
  rw [declare]
  simp only [List.map_attach_eq_pmap, List.pmap_eq_map]

theorem name_declare : (declare o name summary enclosing).name = name := by rw [declare_eq]

/-- The members of a class have the names that are chosen for its keys. -/
theorem map_name_members (ho : o.keys.Nodup) :
    (declare o name summary enclosing).members.map (·.name) = (memberNames o name).map (·.2) := by
  rw [← map_lookup_keys (map_fst_memberNames o name ▸ ho) "", map_fst_memberNames, declare_eq]
  simp [ObjectShape.keys, Function.comp_def]

/-- The classes directly inside a class have the names that are chosen for the objects of its shape. -/
theorem map_name_nested : (declare o name summary enclosing).nested.map (·.name) =
    (nestedNames o (enclosing ++ name :: (memberNames o name).map (·.2))).map (·.2) := by
  have hkeys := map_fst_nestedNames o (enclosing ++ name :: (memberNames o name).map (·.2))
  rw [← map_lookup_keys (hkeys ▸ o.nodup_names_subtypes) "", hkeys, declare_eq]
  simp [name_declare, Function.comp_def]

/-- The classes directly inside are declared one by one for the objects that the shape refers to. -/
theorem forall₂_nested (o : ObjectShape) (name summary : String) (enclosing : List String) :
    o.subtypes.Forall₂ (fun u e => ∃ c s, e = declare u c s (enclosing ++ [name]))
      (declare o name summary enclosing).nested := by
  rw [declare_eq]
  exact List.forall₂_map_right_iff.mpr (List.forall₂_same.mpr fun u _ => ⟨_, _, rfl⟩)

/-- A class directly inside is declared for an object that the shape refers to. -/
theorem exists_of_mem_nested {e : ClassDecl} (he : e ∈ (declare o name summary enclosing).nested) :
    ∃ u ∈ o.subtypes, ∃ c s, e = declare u c s (enclosing ++ [name]) :=
  exists_left_of_forall₂ (forall₂_nested o name summary enclosing) he

/-- The class that is declared for an object that the shape refers to. -/
theorem mem_nested (summary : String) {u : ObjectShape} (hu : u ∈ o.subtypes) {c : String}
    (hc : (nestedNames o (enclosing ++ name :: (memberNames o name).map (·.2))).lookup u.name = some c) :
    ∃ s, declare u c s (enclosing ++ [name]) ∈ (declare o name summary enclosing).nested := by
  refine ⟨nestedSummary o (memberNames o name) u, ?_⟩
  rw [declare_eq]
  refine List.mem_map.mpr ⟨u, hu, ?_⟩
  simp only [hc, Option.getD_some]

/-- The member that is declared for a property. -/
theorem mem_members {k ref : String} {t : Shape} (ht : (k, t) ∈ o.properties)
    (href : (memberNames o name).lookup k = some ref) :
    ⟨k, .ofShape (nestedNames o (enclosing ++ name :: (memberNames o name).map (·.2))) t, ref⟩ ∈
      (declare o name summary enclosing).members := by
  rw [declare_eq]
  refine List.mem_map.mpr ⟨(k, t), ht, ?_⟩
  simp only [href, Option.getD_some]

/-- The objects that a shape refers to are found by their names. -/
theorem exists_referencingKey? (ho : o.WellFormed) {u : ObjectShape} (hu : o.Refers u) :
    ∃ k t, o.referencingKey? u.name = some k ∧ o.get? k = some t ∧ t.innerObject? = some u := by
  obtain ⟨k, t, ht, htu⟩ := hu
  have hsome : (o.properties.find? fun (_, t) => t.innerObject?.any (·.name = u.name)).isSome = true :=
    List.find?_isSome.mpr ⟨(k, t), ht, by simp [htu]⟩
  obtain ⟨⟨k', t'⟩, hfind⟩ := Option.isSome_iff_exists.mp hsome
  have hmem := List.mem_of_find?_eq_some hfind
  obtain ⟨u', hu', hname⟩ : ∃ u', t'.innerObject? = some u' ∧ u'.name = u.name := by
    simpa [Option.any_eq_true] using List.find?_some hfind
  have hsame : u' = u := ho.coherent ⟨k', t', hmem, hu'⟩ ⟨k, t, ht, htu⟩ hname
  refine ⟨k', t', ?_, ObjectShape.get?_of_mem ho.keys_nodup hmem, hsame ▸ hu'⟩
  rw [ObjectShape.referencingKey?, hfind, Option.map_some]

/-! ### Types -/

theorem rank_ofShape (classNames : List (String × String)) (t : Shape) :
    (TypeRef.ofShape classNames t).rank = t.arrayDepth := by
  induction t using Shape.induction with
  | prim p => rfl
  | array e ih => simp [TypeRef.ofShape, Shape.arrayDepth, ih]
  | object o => rfl

theorem base_ofShape (classNames : List (String × String)) (t : Shape) :
    (TypeRef.ofShape classNames t).base = (TypeRef.ofShape classNames t.innermost).base := by
  induction t using Shape.induction with
  | prim p => rfl
  | array e ih => exact ih
  | object o => rfl

/-- The type of a shape with an object inside names the class that is chosen for the object. -/
theorem base_ofShape_object {classNames : List (String × String)} {t : Shape} {u : ObjectShape} {c : String}
    (ht : t.innerObject? = some u) (hlookup : classNames.lookup u.name = some c) (hc : c ≠ "") :
    (TypeRef.ofShape classNames t).base = .named c := by
  rw [base_ofShape, Shape.innerObject?_eq_some_iff.mp ht]
  simp [TypeRef.ofShape, TypeRef.classNameFor, hlookup, hc]

/-! ### Scopes -/

/-- Among classes of different names, the first of a name is the only one. -/
theorem find?_name {ds : List ClassDecl} (h : (ds.map (·.name)).Nodup) {e : ClassDecl} (he : e ∈ ds) :
    ds.find? (·.name = e.name) = some e := by
  obtain ⟨f, hf⟩ : ∃ f, ds.find? (·.name = e.name) = some f :=
    Option.isSome_iff_exists.mp (List.find?_isSome.mpr ⟨e, he, by simp⟩)
  have hname : f.name = e.name := by simpa using List.find?_some hf
  rw [hf, List.inj_on_of_nodup_map h (List.mem_of_find?_eq_some hf) he hname]

variable {d root : ClassDecl} {around : List ClassDecl}

/-- The name of a class directly inside another means this class there. -/
theorem resolve?_name (h : (d.nested.map (·.name)).Nodup) {e : ClassDecl} (he : e ∈ d.nested) :
    resolve? root (d :: around) e.name = some e := by
  rw [resolve?, List.flatMap_cons, List.append_assoc, List.find?_append, find?_name h he, Option.some_or]

/-- The names in a class that is declared for a well-formed object are chosen well. -/
theorem wellScoped_declare (ho : o.WellFormed) (name summary : String) (root : ClassDecl)
    (around : List ClassDecl) :
    (declare o name summary (around.map (·.name)).reverse).WellScoped o root around := by
  generalize henclosing : (around.map (·.name)).reverse = enclosing
  have hnames : (name :: ((memberNames o name).map (·.2) ++ (nestedNames o
      (enclosing ++ name :: (memberNames o name).map (·.2))).map (·.2))).Nodup :=
    nodup_names fun _ h => List.mem_append_right _ h
  have hnested : ((declare o name summary enclosing).nested.map (·.name)).Nodup := by
    rw [map_name_nested]
    exact nodup_allocate ..
  refine {
    names_nodup := ?names_nodup
    name_ne := ?name_ne
    keys_eq := ?keys_eq
    member := ?member
    lookups := ?lookups }
  case names_nodup => rwa [name_declare, map_name_members ho.keys_nodup, map_name_nested]
  case name_ne =>
    intro e he c hc heq
    have hmem : e.name ∈ (declare o name summary enclosing).nested.map (·.name) := List.mem_map_of_mem he
    rw [map_name_nested] at hmem
    refine not_mem_allocate (List.mem_append_left _ ?_) hmem
    rw [← henclosing, List.mem_reverse, heq]
    exact List.mem_map_of_mem hc
  case keys_eq =>
    rw [declare_eq]
    simp [ObjectShape.keys, Function.comp_def]
  case member =>
    intro k t ht
    obtain ⟨ref, href⟩ := exists_memberName (ObjectShape.mem_keys.mpr ⟨t, ht⟩) name
    refine ⟨_, mem_members ht href, rfl, ?_, rank_ofShape _ t, ?_, ?_⟩
    · rwa [name_declare]
    · intro p hp
      rw [base_ofShape, hp]
      rfl
    · intro u hu
      have hsub : u ∈ o.subtypes := ho.mem_subtypes_iff.mpr ⟨k, t, ht, hu⟩
      obtain ⟨c, hc, hne⟩ := exists_nestedName hsub (enclosing ++ name :: (memberNames o name).map (·.2))
      obtain ⟨s, hs⟩ := mem_nested summary hsub hc
      refine ⟨_, hs, ?_, resolve?_name hnested hs, s, ?_⟩
      · rw [name_declare]
        exact base_ofShape_object hu hc hne
      · rw [name_declare, List.map_cons, List.reverse_cons, henclosing, name_declare]
  case lookups =>
    intro u hu
    obtain ⟨k, t, hkey, hk, ht⟩ := exists_referencingKey? ho (ho.mem_subtypes_iff.mp hu)
    obtain ⟨ref, href⟩ := exists_memberName (ObjectShape.mem_keys_of_get? hk) name
    obtain ⟨c, hc, -⟩ := exists_nestedName hu (enclosing ++ name :: (memberNames o name).map (·.2))
    refine ⟨k, t, ref, c, hkey, hk, ht, ?_, ?_⟩
    · rwa [name_declare]
    · rwa [henclosing, name_declare]

/-! ### The classes of a tree -/

theorem isFor_ofTree (t : Tree) : (ofTree t).IsFor t.root [] := by
  refine ⟨s!"Represents {t.root.name}.", ?_⟩
  rw [ofTree, name_declare]
  rfl

/-- Every class of a tree is declared for an object that the root of the tree reaches. -/
theorem exists_isFor {t : Tree} (h : DeclaredIn (ofTree t) around d) :
    ∃ o, t.root.Reaches o ∧ d.IsFor o around := by
  induction h with
  | root => exact ⟨t.root, .refl, isFor_ofTree t⟩
  | @nested around d e hd he ih =>
    obtain ⟨o, ho, summary, hfor⟩ := ih
    rw [hfor] at he
    obtain ⟨u, hu, c, s, rfl⟩ := exists_of_mem_nested he
    refine ⟨u, ho.tail (ObjectShape.refers_of_mem_subtypes hu), s, ?_⟩
    rw [name_declare, List.map_cons, List.reverse_cons]

/-- **Every name in the classes of an inferred tree means what it should.** The search for a free name ends,
in the first candidate that is free. Every class, at any depth, is declared for an object that the root
reaches. Its name, those of its members and those of the classes inside it differ, and the latter from those
of all classes around it; each property has a member, and the class name in the member's type, looked up
outwards from the class, means a class directly inside it that is declared for just the object in the
property's shape; and no name is looked up in vain. -/
theorem wellScoped_of_succeeded [Json5Decoder] {r : Request} {signal : Signal} {tree : Tree}
    (h : (r.run signal).1 = .ok (.succeeded tree)) :
    (∀ base taken, ∃ k ≤ taken.length, freshName base taken = candidate base k ∧
      candidate base k ∉ taken ∧ ∀ j < k, candidate base j ∈ taken) ∧
    ∀ around d, DeclaredIn (ofTree tree) around d →
      (∃ o, tree.root.Reaches o ∧ d.IsFor o around) ∧
      ∀ o, tree.root.Reaches o → d.IsFor o around → d.WellScoped o (ofTree tree) around := by
  refine ⟨freshName_spec, fun around d hd => ⟨exists_isFor hd, fun o ho hfor => ?_⟩⟩
  obtain ⟨summary, hfor⟩ := hfor
  rw [hfor]
  exact wellScoped_declare (consistent_of_succeeded h o ho) ..

/-- A document in which the identifiers of two keys collide, and the class for the object under the first of
them with the member of a third key: the type of the first member means the class that gave way. -/
theorem wellScoped_of_succeeded_collision :
    letI := Lenient.decoder
    let request : Request := {
      source := .value (.obj [(.text "a", .obj [(.text "x", .int 1)]), (.text "A", .int 2),
        (.text "JsonAType", .int 3)])
      rootName := "Root" }
    let inner : ObjectShape := ⟨"A", 1, [("x", .prim .integer)]⟩
    let root : ObjectShape :=
      ⟨"Root", 0, [("a", .object inner), ("A", .prim .integer), ("JsonAType", .prim .integer)]⟩
    let d := ofTree { root }
    (request.run none).1 = .ok (.succeeded { root }) ∧
      d.members.map (·.name) = ["A", "A2", "JsonAType"] ∧ d.nested.map (·.name) = ["JsonAType2"] ∧
      ∃ e ∈ d.nested, resolve? d [d] e.name = some e ∧ e.IsFor inner [d] := by
  generalize Lenient.decoder = json5
  intro request inner root d
  have hrun : (request.run none).1 = .ok (.succeeded { root }) := by cbv
  have hscoped := ((wellScoped_of_succeeded hrun).2 [] d .root).2 root .refl (isFor_ofTree _)
  obtain ⟨m, -, -, -, -, -, hobject⟩ := hscoped.member "a" (.object inner) (List.mem_cons_self ..)
  obtain ⟨e, he, -, hmeans, hfor⟩ := hobject inner rfl
  have hmembers : (ofTree { root }).members.map (·.name) = ["A", "A2", "JsonAType"] := by cbv
  have hnested : (ofTree { root }).nested.map (·.name) = ["JsonAType2"] := by cbv
  exact ⟨hrun, hmembers, hnested, e, he, hmeans, hfor⟩

end JsonShape.CSharp
