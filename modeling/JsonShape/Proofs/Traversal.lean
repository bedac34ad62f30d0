import JsonShape.Command.Run
import JsonShape.Document.Lenient
import JsonShape.Proofs.CSharp.Documentation
import JsonShape.Proofs.Model.RoundTrip
import JsonShape.Server

/-!
# Walks through a tree

The objects of a tree in pre-order, and everything else that goes through the tree: the loop with a stack, which
ends after as many turns as there are objects; the classes, and the lines that declare them; the descriptions in
the model; and the counts that are reported. All go through the same objects in the same order.

The lines are those that the renderer joins to the text. A key with a line feed breaks some of them in the text,
and what it writes there may look like a declaration; it is none of a class, and is not counted.
-/

namespace JsonShape

/-! ### The loop with a stack -/

namespace ObjectShape

theorem preorder_eq (o : ObjectShape) : o.preorder = o :: o.subtypes.flatMap preorder := by
  rw [preorder]
  simp only [List.flatMap_subtype, List.unattach_attach]

/-- A stack stands for the pre-orders of its objects, the top first. -/
theorem walk_eq (stack : List ObjectShape) : walk stack = stack.flatMap preorder := by
  fun_induction walk stack with
  | case1 => rfl
  | case2 o stack ih =>
    rw [ih, List.flatMap_append, List.flatMap_cons, preorder_eq o, List.cons_append]

/-- A turn of the loop: the object at the end of the stack is listed, and those it refers to take its place, the
first of them at the end. -/
def turn : List ObjectShape × List ObjectShape → List ObjectShape × List ObjectShape
  | (stack, listed) =>
    match stack.getLast? with
    | none => (stack, listed)
    | some o => (stack.dropLast ++ o.subtypes.reverse, listed ++ [o])

theorem turn_reverse_cons (o : ObjectShape) (stack listed : List ObjectShape) :
    turn ((o :: stack).reverse, listed) = ((o.subtypes ++ stack).reverse, listed ++ [o]) := by
  simp [turn]

/-- The loop ends when everything that the stack stands for is listed. -/
theorem iterate_turn (stack listed : List ObjectShape) :
    turn^[(walk stack).length] (stack.reverse, listed) = ([], listed ++ walk stack) := by
  fun_induction walk stack generalizing listed with
  | case1 => simp
  | case2 o stack ih =>
    rw [List.length_cons, Function.iterate_succ_apply, turn_reverse_cons, ih, List.append_assoc,
      List.singleton_append]

/-- It does not end before. -/
theorem iterate_turn_ne_nil (stack listed : List ObjectShape) :
    ∀ m < (walk stack).length, (turn^[m] (stack.reverse, listed)).1 ≠ [] := by
  fun_induction walk stack generalizing listed with
  | case1 => exact fun m hm => absurd hm (Nat.not_lt_zero m)
  | case2 o stack ih =>
    intro m hm
    cases m with
    | zero => simp
    | succ m =>
      rw [Function.iterate_succ_apply, turn_reverse_cons]
      exact ih _ m (Nat.lt_of_succ_lt_succ hm)

end ObjectShape

/-! ### Descriptions -/

namespace Model

mutual
/-- The description of an object, followed by those of its subtypes and of theirs. -/
def flatten : Value → List Value
  | .obj members => .obj members :: flattenSubtypes members
  | _ => []
termination_by structural v => v
/-- The descriptions in the subtypes of an object. -/
def flattenSubtypes : List (Key × Value) → List Value
  | [] => []
  | (key, v) :: rest => if key = .text "subtypes" then flattenItems v else flattenSubtypes rest
termination_by structural members => members
/-- The descriptions in an array. -/
def flattenItems : Value → List Value
  | .arr items => flattenAll items
  | _ => []
termination_by structural v => v
/-- The descriptions in some values. -/
def flattenAll : List Value → List Value
  | [] => []
  | v :: rest => flatten v ++ flattenAll rest
termination_by structural items => items
end

theorem flattenAll_eq (vs : List Value) : flattenAll vs = vs.flatMap flatten := by
  induction vs with
  | nil => rfl
  | cons v rest ih => rw [flattenAll, ih, List.flatMap_cons]

/-- The descriptions in that of an object are those of the objects in its pre-order. -/
theorem flatten_ofObject (o : ObjectShape) : flatten (ofObject o) = o.preorder.map ofObject := by
  induction o using ObjectShape.refers_induction with
  | step o ih =>
    have hsub : (o.subtypes.map ofObject).flatMap flatten = o.subtypes.flatMap fun u => u.preorder.map ofObject := by
      rw [List.flatMap_map]
      exact List.flatMap_congr fun u hu => ih u (ObjectShape.refers_of_mem_subtypes hu)
    conv_lhs => rw [ofObject_eq]
    show Value.record _ :: flattenAll (o.subtypes.map ofObject) = _
    rw [flattenAll_eq, hsub, o.preorder_eq, List.map_cons, List.map_flatMap, ofObject_eq o]

end Model

/-! ### Classes -/

namespace CSharp

mutual
/-- A class and those inside it in the order of the text, each with the classes around it from the inside out. -/
def ClassDecl.inOrder (around : List ClassDecl) : ClassDecl → List (List ClassDecl × ClassDecl)
  | ⟨name, summary, depth, members, nested⟩ =>
    (around, ⟨name, summary, depth, members, nested⟩) ::
      inOrderOfAll (⟨name, summary, depth, members, nested⟩ :: around) nested
/-- Some classes and those inside them. -/
def inOrderOfAll (around : List ClassDecl) : List ClassDecl → List (List ClassDecl × ClassDecl)
  | [] => []
  | d :: rest => d.inOrder around ++ inOrderOfAll around rest
end

theorem ClassDecl.inOrder_eq (d : ClassDecl) (around : List ClassDecl) :
    d.inOrder around = (around, d) :: d.nested.flatMap (·.inOrder (d :: around)) := by
  have hall (around : List ClassDecl) (ds : List ClassDecl) :
      inOrderOfAll around ds = ds.flatMap (·.inOrder around) := by
    induction ds with
    | nil => rfl
    | cons d rest ih => rw [inOrderOfAll, ih, List.flatMap_cons]
  obtain ⟨name, summary, depth, members, nested⟩ := d
  rw [inOrder, hall]

/-- The classes in that of an object are declared one by one for the objects in its pre-order. -/
theorem forall₂_inOrder (o : ObjectShape) (name summary : String) (around : List ClassDecl) :
    o.preorder.Forall₂ (fun u c => c.2.IsFor u c.1)
      ((declare o name summary (around.map (·.name)).reverse).inOrder around) := by
  induction o using ObjectShape.refers_induction generalizing name summary around with
  | step o ih =>
    rw [o.preorder_eq, ClassDecl.inOrder_eq]
    refine .cons ⟨summary, by rw [name_declare]⟩ ?_
    have hnested := forall₂_nested o name summary (around.map (·.name)).reverse
    have hname : (declare o name summary (around.map (·.name)).reverse).name = name := name_declare
    generalize declare o name summary (around.map (·.name)).reverse = d at hnested hname ⊢
    refine List.rel_flatMap ((List.forall₂_and_left _ _).mpr ⟨fun u hu => hu, hnested⟩) ?_
    rintro u e ⟨hu, c, s, rfl⟩
    have henclosing : (around.map (·.name)).reverse ++ [name] = ((d :: around).map (·.name)).reverse := by
      rw [List.map_cons, List.reverse_cons, hname]
    rw [henclosing]
    exact ih u (ObjectShape.refers_of_mem_subtypes hu) c s (d :: around)

/-- Where each object is one level deeper than what refers to it, the classes are as deep as they are nested. -/
theorem depth_of_mem_inOrder {o : ObjectShape} (ho : o.Consistent) (name summary : String)
    (enclosing : List String) (around : List ClassDecl) :
    ∀ c ∈ (declare o name summary enclosing).inOrder around, c.2.depth + around.length = o.depth + c.1.length := by
  induction o using ObjectShape.refers_induction generalizing name summary enclosing around with
  | step o ih =>
    rw [ClassDecl.inOrder_eq, List.forall_mem_cons]
    constructor
    · rw [declare_eq]
    · intro c hc
      obtain ⟨e, he, hc⟩ := List.mem_flatMap.mp hc
      obtain ⟨u, hu, n, s, rfl⟩ := exists_of_mem_nested he
      have hr := ObjectShape.refers_of_mem_subtypes hu
      have hdepth := ih u hr (ho.of_refers hr) n s _ _ c hc
      rw [ho.wellFormed.depth_eq hr, List.length_cons] at hdepth
      omega

/-! ### Lines that declare classes -/

/-- What stands before the name where a class is declared. -/
def classKeywords : List Char := "public sealed class ".toList

/-- The number of tabs before the declaration of a class and the class's name, if a line may be one. -/
def headOf? (line : List Char) : Option (Nat × String) :=
  let rest := line.dropWhile (· = '\t')
  if classKeywords.isPrefixOf rest then
    some ((line.takeWhile (· = '\t')).length, String.ofList (rest.drop classKeywords.length))
  else none

/-- Whether a line is an opening brace after tabs. -/
def isOpening (line : List Char) : Bool := line.dropWhile (· = '\t') = ['\x7b']

/-- The classes that some lines declare, each by its indent and its name: the heads before opening braces. -/
def declared : List String → List (Nat × String)
  | line :: next :: rest =>
    (if isOpening next.toList then (headOf? line.toList).toList else []) ++ declared (next :: rest)
  | _ => []

theorem exists_classKeywords : ∃ cs, classKeywords = 'p' :: cs := ⟨_, String.toList_ofList⟩

theorem toList_classHead (name : String) : (classHead name).toList = classKeywords ++ name.toList := by
  rw [classHead_eq, String.toList_append]
  rfl

@[simp] theorem headOf?_tabs (n : Nat) (cs : List Char) :
    headOf? ((tabs n).toList ++ cs) = (headOf? cs).map fun p => (n + p.1, p.2) := by
  have htabs : ∀ c ∈ (tabs n).toList, decide (c = '\t') = true := fun c hc => by simp [eq_tab_of_mem_tabs hc]
  have hlength : (tabs n).toList.length = n := by simp [tabs]
  unfold headOf?
  simp only [List.dropWhile_append_of_pos htabs, List.takeWhile_append_of_pos htabs, List.length_append, hlength]
  split <;> rfl

@[simp] theorem headOf?_nil : headOf? [] = none := by
  obtain ⟨cs, h⟩ := exists_classKeywords
  simp [headOf?, h]

/-- A line that does not start like a declaration is none. -/
@[simp] theorem headOf?_cons {c : Char} (htab : c ≠ '\t') (hp : c ≠ 'p') (cs : List Char) :
    headOf? (c :: cs) = none := by
  obtain ⟨cs', h⟩ := exists_classKeywords
  rw [headOf?, List.dropWhile_cons_of_neg (by simpa using htab)]
  simp [h, hp.symm]

theorem headOf?_head (n : Nat) (name : String) : headOf? (tabs n ++ classHead name).toList = some (n, name) := by
  have hhead : headOf? (classHead name).toList = some (0, name) := by
    obtain ⟨cs, h⟩ := exists_classKeywords
    simp [headOf?, toList_classHead, h]
  rw [String.toList_append, headOf?_tabs, hhead]
  rfl

@[simp] theorem isOpening_tabs (n : Nat) (cs : List Char) :
    isOpening ((tabs n).toList ++ cs) = isOpening cs := by
  rw [isOpening, List.dropWhile_append_of_pos, isOpening]
  exact fun c hc => by simp [eq_tab_of_mem_tabs hc]

variable {l next : String} {ls rest : List String} {options : OutputOptions}

theorem declared_cons_of_none (h : headOf? l.toList = none) : declared (l :: ls) = declared ls := by
  cases ls with
  | nil => rfl
  | cons next rest => simp [declared, h]

theorem declared_cons_of_not_opening (h : isOpening next.toList = false) :
    declared (l :: next :: rest) = declared (next :: rest) := by
  simp [declared, h]

theorem declared_append_of_none (h : ∀ l ∈ ls, headOf? l.toList = none) :
    declared (ls ++ rest) = declared rest := by
  induction ls with
  | nil => rfl
  | cons l ls ih =>
    rw [List.forall_mem_cons] at h
    rw [List.cons_append, declared_cons_of_none h.1, ih h.2]

/-- The head of a class is found. -/
theorem declared_head (n : Nat) (name : String) (rest : List String) :
    declared ((tabs n ++ classHead name) :: (tabs n ++ "\x7b") :: rest) = (n, name) :: declared rest := by
  have hbrace : headOf? (tabs n ++ "\x7b").toList = none := by simp
  rw [declared, headOf?_head, declared_cons_of_none hbrace]
  rw [String.toList_append, isOpening_tabs]
  rfl

theorem declared_docLines (n : Nat) (text : String) :
    declared (docLines options (tabs n) text ++ rest) = declared rest := by
  refine declared_append_of_none fun l hl => ?_
  unfold docLines at hl
  split at hl
  · simp only [List.mem_cons, List.not_mem_nil, or_false] at hl
    rcases hl with rfl | rfl | rfl <;> simp
  · cases hl

/-- An empty line comes after the only line of a member that could be the head of a class. -/
theorem declared_memberLines (n : Nat) (m : Member) :
    declared (memberLines options (tabs n) m ++ rest) = declared rest := by
  simp only [memberLines, List.append_assoc]
  rw [declared_docLines, List.singleton_append, declared_cons_of_none (by simp [toString])]
  rw [declared_append_of_none, List.cons_append, List.singleton_append, declared_cons_of_not_opening (by rfl),
    declared_cons_of_none (by simp)]
  intro l hl
  split at hl
  · simp [List.mem_singleton.mp hl, toString]
  · cases hl

theorem declared_flatMap_memberLines (n : Nat) (members : List Member) :
    declared (members.flatMap (memberLines options (tabs n)) ++ rest) = declared rest := by
  induction members with
  | nil => rfl
  | cons m members ih => rw [List.flatMap_cons, List.append_assoc, declared_memberLines, ih]

/-- A constructor declares no class where no block is opened after it. -/
theorem declared_constructorLines (h : isOpening next.toList = false) (n : Nat) (name : String) :
    declared (constructorLines options (tabs n) name ++ next :: rest) = declared (next :: rest) := by
  rw [constructorLines, List.append_assoc, declared_docLines, List.singleton_append,
    declared_cons_of_not_opening h]

theorem isOpening_closing (n : Nat) (label : String) : isOpening (closing options (tabs n) label).toList = false := by
  rw [closing, String.append_assoc, String.toList_append, isOpening_tabs]
  simp [isOpening]

theorem headOf?_closing (options : OutputOptions) (n : Nat) (label : String) :
    headOf? (closing options (tabs n) label).toList = none := by
  simp [closing, String.append_assoc]

/-- The lines of a class declare it and the classes inside it, in this order. -/
theorem declared_classLines (base : Nat) (d : ClassDecl) (around : List ClassDecl) (rest : List String) :
    declared (classLines options base d ++ rest) =
      (d.inOrder around).map (fun c => (base + c.2.depth, c.2.name)) ++ declared rest := by
  induction d using ClassDecl.induction generalizing around rest with
  | step d ih =>
    have hnested : ∀ ds : List ClassDecl, (∀ e ∈ ds, e ∈ d.nested) → ∀ rest,
        declared (nestedLines options base ds ++ rest) =
          (ds.flatMap (·.inOrder (d :: around))).map (fun c => (base + c.2.depth, c.2.name)) ++ declared rest := by
      intro ds hds rest
      induction ds with
      | nil => rfl
      | cons e ds ihds =>
        rw [List.forall_mem_cons] at hds
        rw [nestedLines, List.cons_append, List.cons_append, declared_cons_of_none (by simp), List.append_assoc,
          ih e hds.1, ihds hds.2, List.flatMap_cons, List.map_append, List.append_assoc]
    have hinner := hnested d.nested fun _ he => he
    rw [ClassDecl.inOrder_eq, classLines_append, declared_docLines, declared_head, declared_flatMap_memberLines]
    generalize hclose : closing options (tabs (base + d.depth)) (classHead d.name) = close
    have hclosing : declared (close :: rest) = declared rest :=
      declared_cons_of_none (hclose ▸ headOf?_closing options (base + d.depth) (classHead d.name))
    have hconstructor : declared (constructorLines options (tabs (base + d.depth + 1)) d.name ++
        (nestedLines options base d.nested ++ close :: rest)) =
          declared (nestedLines options base d.nested ++ close :: rest) := by
      cases d.nested with
      | nil => exact declared_constructorLines (hclose ▸ isOpening_closing _ _) _ _
      | cons e ds => exact declared_constructorLines (by rfl) _ _
    rw [hconstructor, hinner, hclosing]
    rfl

/-- The lines of a tree declare just its classes. -/
theorem declared_treeLines (options : OutputOptions) (t : Tree) : declared (treeLines options t) =
    ((ofTree t).inOrder []).map fun c => (scopeDepth options t + c.2.depth, c.2.name) := by
  have hhead : ∀ l ∈ headLines options, headOf? l.toList = none := by
    intro l hl
    rcases mem_headLines hl with hl | hl
    · simp only [notice, List.mem_cons, List.not_mem_nil, or_false] at hl
      rcases hl with rfl | rfl | rfl | rfl | rfl | rfl | rfl | rfl <;> simp [toString]
    · simp only [List.mem_cons, List.not_mem_nil, or_false] at hl
      rcases hl with rfl | rfl | rfl <;> simp
  have hopening : ∀ l ∈ scopeOpening options t, headOf? l.toList = none := by
    intro l hl
    have hl := mem_scopeOpening hl
    simp only [List.mem_cons, List.not_mem_nil, or_false] at hl
    rcases hl with rfl | rfl | rfl | rfl <;> simp
  have hclosing : declared (scopeClosing options t) = [] := by
    unfold scopeClosing
    split <;> rfl
  rw [treeLines_eq, List.append_assoc, List.append_assoc, declared_append_of_none hhead,
    declared_append_of_none hopening, declared_classLines _ _ [], hclosing, List.append_nil]

end CSharp

/-! ### All walks -/

/-- What is counted is the objects of the pre-order. -/
theorem Tree.objects_eq (t : Tree) : t.objects = t.root.preorder := by
  rw [objects, ObjectShape.walk_eq, List.flatMap_singleton]

theorem Tree.forall₂_inOrder (t : Tree) :
    t.root.preorder.Forall₂ (fun o c => c.2.IsFor o c.1) ((CSharp.ofTree t).inOrder []) :=
  CSharp.forall₂_inOrder t.root t.root.name s!"Represents {t.root.name}." []

theorem Tree.objectCount_eq (t : Tree) (options : OutputOptions) :
    t.objectCount = (CSharp.declared (CSharp.treeLines options t)).length := by
  rw [objectCount, objects_eq, t.forall₂_inOrder.length_eq, CSharp.declared_treeLines, List.length_map]

open CSharp Command in
/-- **All walks through a tree agree.** For every tree, the loop with a stack ends and has listed the pre-order of
the root. The classes, in the order of the text, are declared one by one for these objects, and the lines that are
joined to the text, whatever the options, declare just these classes; the descriptions in the model are those of
the objects. The count that the command line and the server report is the number of declarations among the lines.
If the tree comes from a pass, each class is indented by its level and by the namespace's block. -/
theorem traversals_agree [Json5Decoder] (t : Tree) (options : OutputOptions) :
    let classes := (ofTree t).inOrder []
    let count := (declared (treeLines options t)).length
    (∃ n, ObjectShape.turn^[n] ([t.root], []) = ([], t.root.preorder) ∧
      ∀ m < n, (ObjectShape.turn^[m] ([t.root], [])).1 ≠ []) ∧
    t.objects = t.root.preorder ∧
    t.root.preorder.Forall₂ (fun o c => c.2.IsFor o c.1) classes ∧
    declared (treeLines options t) = classes.map (fun c => (scopeDepth options t + c.2.depth, c.2.name)) ∧
    ((Model.members? (Model.ofTree t)).bind (Value.member? · "root")).map Model.flatten =
      some (t.root.preorder.map Model.ofObject) ∧
    t.objectCount = count ∧
    (∀ (m : Type → Type) [Monad m] (files : Files m) (g : Generate) (output text : String),
      writeOutput files { g with output := some output } text t = do
        let path := Path.ofString output
        match ← files.write path text with
        | .ok () => return { stderr := s!"Wrote {count} types to {path.display}\n" }
        | .error e => return escapedReport (.file e path)) ∧
    (∀ s : Server, s.treeAnswer .model t =
      .json (.record [("success", .bool true), ("object_count", .int count), ("model", Model.ofTree t)])) ∧
    ∀ (r : Request) (signal : Signal), (r.run signal).1 = .ok (.succeeded t) →
      declared (treeLines options t) = classes.map fun c => (scopeDepth options t + c.1.length, c.2.name) := by
  intro classes count
  have hcount : t.objectCount = count := t.objectCount_eq options
  have hdeclared := declared_treeLines options t
  refine ⟨⟨t.root.preorder.length, ?ends, ?runs⟩, t.objects_eq, t.forall₂_inOrder, hdeclared,
    ?model, hcount, ?command, ?server, ?pass⟩
  case ends =>
    have h := ObjectShape.iterate_turn [t.root] []
    rwa [List.nil_append, ← Tree.objects, t.objects_eq] at h
  case runs =>
    have h := ObjectShape.iterate_turn_ne_nil [t.root] []
    rwa [← Tree.objects, t.objects_eq] at h
  case model =>
    show some (Model.flatten (Model.ofObject t.root)) = _
    rw [Model.flatten_ofObject]
  case command =>
    intro m _ files g output text
    rw [← hcount]
    rfl
  case server =>
    intro s
    rw [← hcount]
    rfl
  case pass =>
    intro r signal h
    rw [hdeclared]
    refine List.map_congr_left fun c hc => ?_
    have hdepth := depth_of_mem_inOrder (consistent_of_succeeded h) _ _ [] [] c hc
    have hlevel : c.2.depth = c.1.length := by simpa [depth_root_of_succeeded h] using hdepth
    rw [hlevel]

open CSharp in
/-- A tree of a pass whose root refers to one object by two keys: it is listed, declared and counted once. -/
theorem traversals_agree_shared :
    letI := Lenient.decoder
    let request : Request := {
      source := .value (.obj [(.text "a", .obj [(.text "x", .int 1)]), (.text "A", .obj [(.text "x", .int 2)])])
      rootName := "R"
      scope := "N" }
    let inner : ObjectShape := ⟨"A", 1, [("x", .prim .integer)]⟩
    let tree : Tree := { root := ⟨"R", 0, [("a", .object inner), ("A", .object inner)]⟩, scope := "N" }
    let options : OutputOptions := { fileScopedNamespaces := false }
    (request.run none).1 = .ok (.succeeded tree) ∧ tree.root.preorder = [tree.root, inner] ∧
      declared (treeLines options tree) = [(1, "R"), (2, "JsonAType")] ∧ tree.objectCount = 2 := by
  generalize Lenient.decoder = json5
  intro request inner tree options
  have hrun : (request.run none).1 = .ok (.succeeded tree) := by cbv
  obtain ⟨-, -, -, -, -, hcount, -, -, hpass⟩ := traversals_agree tree options
  have hsub : tree.root.subtypes = [inner] := rfl
  have hnested : (ofTree tree).nested.map (·.name) = ["JsonAType"] := by
    rw [ofTree, map_name_nested]
    decide +kernel
  obtain ⟨e, he, hname⟩ := List.map_eq_singleton_iff.mp hnested
  have hinner : e.nested = [] := by
    have hmem : e ∈ (ofTree tree).nested := he ▸ List.mem_singleton_self e
    obtain ⟨u, hu, c, s, rfl⟩ := exists_of_mem_nested hmem
    rw [hsub] at hu
    rw [List.mem_singleton.mp hu, declare_eq]
    rfl
  have hclasses : (ofTree tree).inOrder [] = [([], ofTree tree), ([ofTree tree], e)] := by
    rw [ClassDecl.inOrder_eq, he, List.flatMap_singleton, ClassDecl.inOrder_eq, hinner, List.flatMap_nil]
  have hdeclared : declared (treeLines options tree) = [(1, "R"), (2, "JsonAType")] := by
    rw [hpass request none hrun, hclasses, List.map_cons, List.map_singleton, hname, ofTree, name_declare]
    rfl
  refine ⟨hrun, ?_, hdeclared, ?_⟩
  · rw [ObjectShape.preorder_eq, hsub, List.flatMap_singleton, ObjectShape.preorder_eq]
    rfl
  · rw [hcount, hdeclared]
    rfl

end JsonShape
