import JsonShape.Document.Lenient
import JsonShape.Proofs.CSharp.Breaks
import JsonShape.Proofs.CSharp.Members
import JsonShape.Proofs.Inference.Keys

/-!
# The text determines the tree

Two inferred trees with the same C# text are the same. The text determines its lines, unless a name or a key breaks
one; the lines of a class determine its name and its members, and leave those of the classes inside it. The type of
a member shows how many arrays a property's shape is in and which primitive is inside, or that an object is; the
object has its name from the property's key, and its own properties are in the lines of a class inside, whose place
among the others its name determines. So what a class is called plays no part, whatever makes it differ from the
class's natural name.
-/

namespace JsonShape.CSharp

variable {options : OutputOptions} {base : Nat} {ls ms : List String}

/-! ### The parts of a class -/

theorem classHead_injective : Function.Injective classHead := fun s t h => by
  rwa [classHead_eq, classHead_eq, String.append_right_inj] at h

/-- The lines of two classes at one depth begin with the same lines only if the classes have the same name and the
same members, and go on alike. -/
theorem parts_of_classLines {d d' : ClassDecl} (hdepth : d.depth = d'.depth)
    (hd : ∀ m ∈ d.members, m.type.base.Usual) (hd' : ∀ m ∈ d'.members, m.type.base.Usual)
    (h : classLines options base d ++ ls = classLines options base d' ++ ms) :
    d.name = d'.name ∧ d.members = d'.members ∧ ∃ close,
      nestedLines options base d.nested ++ close :: ls = nestedLines options base d'.nested ++ close :: ms := by
  rw [classLines_append, classLines_append, ← hdepth] at h
  obtain ⟨hhead, hbody⟩ := List.cons.inj (docLines_append_inj h)
  have hname : d.name = d'.name := classHead_injective ((String.append_right_inj _).mp hhead)
  rw [← hname] at hbody
  obtain ⟨hmembers, hnested⟩ := members_eq hd hd' (List.cons.inj hbody).2
  exact ⟨hname, hmembers, _, hnested⟩

/-- The first line of a class starts with a tab, a slash or a keyword. -/
theorem classLines_append_ne (d : ClassDecl) (s : String) :
    classLines options base d ++ ls ≠ ("namespace " ++ s) :: ms := by
  have hline (n : Nat) (l : String) (hl : l.toList.head? ≠ some 'n') : tabs n ++ l ≠ "namespace " ++ s := by
    intro h
    have hhead := congrArg (·.toList.head?) h
    simp only [String.toList_append] at hhead
    cases n with
    | zero => exact hl (by simpa [tabs] using hhead)
    | succ n => simp [tabs, List.replicate_succ] at hhead
  rw [classLines_append, docLines]
  intro h
  split at h
  · exact hline _ _ (by simp) (List.cons.inj h).1
  · exact hline _ _ (by simp [classHead_eq]) (List.cons.inj h).1

/-! ### Shapes by their types -/

/-- Two shapes are in equally many arrays, and inside these are the same primitive or objects of one name. -/
inductive SameType (t t' : Shape) : Prop
  | prim {p : Primitive} : t.arrayDepth = t'.arrayDepth → t.innermost = .prim p → t'.innermost = .prim p →
      SameType t t'
  | object {u u' : ObjectShape} : t.arrayDepth = t'.arrayDepth → t.innerObject? = some u →
      t'.innerObject? = some u' → u.name = u'.name → SameType t t'

variable {o o' : ObjectShape} {k : String} {t t' : Shape}

/-- Properties of one key with the same type: the names of the objects in them come from the key. -/
theorem sameType_of_ofShape_eq (ho : o.WellFormed) (ho' : o'.WellFormed) (ht : (k, t) ∈ o.properties)
    (ht' : (k, t') ∈ o'.properties) {classNames classNames' : List (String × String)}
    (h : TypeRef.ofShape classNames t = TypeRef.ofShape classNames' t') : SameType t t' := by
  have hdepth : t.arrayDepth = t'.arrayDepth := by
    rw [← rank_ofShape classNames, h, rank_ofShape]
  have hbase : (TypeRef.ofShape classNames t.innermost).base = (TypeRef.ofShape classNames' t'.innermost).base := by
    rw [← base_ofShape, h, base_ofShape]
  rcases t.innermost_cases with ⟨p, hp⟩ | ⟨u, hu⟩ <;> rcases t'.innermost_cases with ⟨q, hq⟩ | ⟨u', hu'⟩
  · rw [hp, hq] at hbase
    cases hbase
    exact .prim hdepth hp hq
  · rw [hp, hu'] at hbase
    cases hbase
  · rw [hu, hq] at hbase
    cases hbase
  · rw [← Shape.innerObject?_eq_some_iff] at hu hu'
    refine .object hdepth hu hu' ?_
    rw [ho.name_eq ht hu, ho'.name_eq ht' hu', hdepth]

theorem SameType.rel_innerObject? (h : SameType t t') :
    Option.Rel (fun u u' : ObjectShape => u.name = u'.name) t.innerObject? t'.innerObject? := by
  cases h with
  | prim _ hp hp' =>
    rw [Shape.innerObject?, hp, Shape.innerObject?, hp']
    exact .none
  | object _ hu hu' hname =>
    rw [hu, hu']
    exact .some hname

/-- Shapes of the same type are equal if objects of one name in them are. -/
theorem SameType.eq (h : SameType t t')
    (hinner : ∀ u u', t.innerObject? = some u → t'.innerObject? = some u' → u.name = u'.name → u = u') :
    t = t' := by
  have hsame : t.arrayDepth = t'.arrayDepth ∧ t.innermost = t'.innermost := by
    cases h with
    | prim hdepth hp hp' => exact ⟨hdepth, hp.trans hp'.symm⟩
    | object hdepth hu hu' hname =>
      have heq := hinner _ _ hu hu' hname
      rw [Shape.innerObject?_eq_some_iff] at hu hu'
      exact ⟨hdepth, by rw [hu, hu', heq]⟩
  rw [← t.wrap_innermost, ← t'.wrap_innermost, hsame.1, hsame.2]

/-! ### Objects by their members -/

/-- The types of the members of a class are usual ones. -/
theorem usual_of_mem_members (ho : o.WellFormed) {name summary : String} {enclosing : List String} :
    ∀ m ∈ (declare o name summary enclosing).members, m.type.base.Usual := by
  intro m hm
  rw [declare_eq] at hm
  obtain ⟨⟨k, t⟩, ht, rfl⟩ := List.mem_map.mp hm
  exact usual_ofShape ho ht _

/-- Objects for which classes with the same members are declared have the same keys, with the same types. -/
theorem forall₂_properties (ho : o.WellFormed) (ho' : o'.WellFormed) {name name' summary summary' : String}
    {enclosing enclosing' : List String}
    (h : (declare o name summary enclosing).members = (declare o' name' summary' enclosing').members) :
    o.properties.Forall₂ (fun p p' => p.1 = p'.1 ∧ SameType p.2 p'.2) o'.properties := by
  rw [declare_eq, declare_eq] at h
  have hmembers := List.forall₂_map_left_iff.mp (List.forall₂_map_right_iff.mp (List.forall₂_eq_eq_eq ▸ h))
  refine (forall₂_mem hmembers).imp ?_
  rintro ⟨k, t⟩ ⟨k', t'⟩ ⟨ht, ht', hm⟩
  obtain ⟨rfl, htype, -⟩ := (Member.mk.injEq ..).mp hm
  exact ⟨rfl, sameType_of_ofShape_eq ho ho' ht ht' htype⟩

/-- Objects of equal names, in order, have among them first ones of equal names. -/
theorem forall₂_firstOfEachName {os us : List ObjectShape} (h : os.Forall₂ (fun o u => o.name = u.name) us) :
    (firstOfEachName os).Forall₂ (fun o u => o.name = u.name) (firstOfEachName us) := by
  induction h with
  | nil => exact .nil
  | cons hname _ ih =>
    rw [firstOfEachName, firstOfEachName]
    refine .cons hname (List.rel_filter (fun o u hou => ?_) ih)
    show decide (o.name ≠ _) = true ↔ decide (u.name ≠ _) = true
    rw [hname, hou]

/-- Objects with the same keys and types refer to objects of the same names, in the same order. -/
theorem forall₂_subtypes
    (h : o.properties.Forall₂ (fun p p' => p.1 = p'.1 ∧ SameType p.2 p'.2) o'.properties) :
    o.subtypes.Forall₂ (fun u u' => u.name = u'.name) o'.subtypes :=
  forall₂_firstOfEachName (List.rel_filterMap (fun _ _ hp => hp.2.rel_innerObject?) h)

/-- Objects with the same keys and types are the same if they refer to the same objects. -/
theorem eq_of_subtypes_eq (ho : o.WellFormed) (ho' : o'.WellFormed) (hname : o.name = o'.name)
    (hdepth : o.depth = o'.depth)
    (h : o.properties.Forall₂ (fun p p' => p.1 = p'.1 ∧ SameType p.2 p'.2) o'.properties)
    (hsub : o.subtypes = o'.subtypes) : o = o' := by
  have hproperties : o.properties = o'.properties := by
    rw [← List.forall₂_eq_eq_eq]
    refine (forall₂_mem h).imp ?_
    rintro ⟨k, t⟩ ⟨k', t'⟩ ⟨ht, ht', rfl, htype⟩
    refine Prod.ext rfl (htype.eq fun u u' hu hu' hn => ?_)
    have hmem := ho.mem_subtypes_iff.mpr ⟨k, t, ht, hu⟩
    have hmem' := ho'.mem_subtypes_iff.mpr ⟨k, t', ht', hu'⟩
    exact List.inj_on_of_nodup_map o.nodup_names_subtypes hmem (hsub ▸ hmem') hn
  obtain ⟨name, depth, properties⟩ := o
  obtain ⟨name', depth', properties'⟩ := o'
  rw [ObjectShape.mk.injEq]
  exact ⟨hname, hdepth, hproperties⟩

/-! ### Objects by their lines -/

/-- Classes one after another for objects of equal names determine the objects if each class does. -/
theorem eq_of_nestedLines {us us' : List ObjectShape} {ds ds' : List ClassDecl} {enclosing enclosing' : List String}
    (hnames : us.Forall₂ (fun u u' => u.name = u'.name) us')
    (hds : us.Forall₂ (fun u e => ∃ c s, e = declare u c s enclosing) ds)
    (hds' : us'.Forall₂ (fun u e => ∃ c s, e = declare u c s enclosing') ds')
    (hread : ∀ u ∈ us, ∀ u' ∈ us', u.name = u'.name → ∀ (c s c' s' : String) (ls ms : List String),
      classLines options base (declare u c s enclosing) ++ ls =
        classLines options base (declare u' c' s' enclosing') ++ ms → u = u' ∧ ls = ms)
    (h : nestedLines options base ds ++ ls = nestedLines options base ds' ++ ms) : us = us' ∧ ls = ms := by
  induction hnames generalizing ds ds' with
  | nil =>
    cases hds
    cases hds'
    exact ⟨rfl, h⟩
  | @cons u u' us us' hname hnames ih =>
    cases hds with
    | cons hd hds =>
      cases hds' with
      | cons hd' hds' =>
        obtain ⟨c, s, rfl⟩ := hd
        obtain ⟨c', s', rfl⟩ := hd'
        rw [nestedLines, nestedLines, List.cons_append, List.cons_append, List.cons_append, List.cons_append,
          List.append_assoc, List.append_assoc] at h
        obtain ⟨rfl, hrest⟩ := hread u (List.mem_cons_self ..) u' (List.mem_cons_self ..) hname _ _ _ _ _ _
          (List.cons.inj h).2
        obtain ⟨rfl, hls⟩ := ih hds hds' (fun v hv v' hv' => hread v (List.mem_cons_of_mem _ hv) v'
          (List.mem_cons_of_mem _ hv')) hrest
        exact ⟨rfl, hls⟩

/-- **The lines of a class determine the object** that it is declared for, given the object's name and depth. -/
theorem eq_of_classLines (ho : o.Consistent) (ho' : o'.Consistent) (hname : o.name = o'.name)
    (hdepth : o.depth = o'.depth) {c s c' s' : String} {enclosing enclosing' : List String}
    (h : classLines options base (declare o c s enclosing) ++ ls =
      classLines options base (declare o' c' s' enclosing') ++ ms) : o = o' ∧ ls = ms := by
  induction o using ObjectShape.refers_induction generalizing o' c s c' s' enclosing enclosing' ls ms with
  | step o ih =>
    have hwf := ho.wellFormed
    have hwf' := ho'.wellFormed
    have hdeclared : (declare o c s enclosing).depth = (declare o' c' s' enclosing').depth := by
      rw [declare_eq, declare_eq]
      exact hdepth
    obtain ⟨-, hmembers, close, hnested⟩ :=
      parts_of_classLines hdeclared (usual_of_mem_members hwf) (usual_of_mem_members hwf') h
    have hproperties := forall₂_properties hwf hwf' hmembers
    obtain ⟨hsub, hrest⟩ := eq_of_nestedLines (forall₂_subtypes hproperties) (forall₂_nested o c s enclosing)
      (forall₂_nested o' c' s' enclosing') (fun u hu u' hu' hn _ _ _ _ _ _ hlines => by
        have hr := ObjectShape.refers_of_mem_subtypes hu
        have hr' := ObjectShape.refers_of_mem_subtypes hu'
        have hdeeper : u.depth = u'.depth := by rw [hwf.depth_eq hr, hwf'.depth_eq hr', hdepth]
        exact ih u hr (ho.of_refers hr) (ho'.of_refers hr') hn hdeeper hlines) hnested
    exact ⟨eq_of_subtypes_eq hwf hwf' hname hdepth hproperties hsub, (List.cons.inj hrest).2⟩

/-! ### Trees by their lines -/

theorem scopeOpening_of_isEmpty {t : Tree} (h : t.scope.isEmpty = true) : scopeOpening options t = [] := by
  rw [scopeOpening, if_pos h]

theorem scopeOpening_of_not_isEmpty (options : OutputOptions) {t : Tree} (h : t.scope.isEmpty = false) :
    scopeOpening options t = if options.fileScopedNamespaces then ["namespace " ++ t.scope ++ ";", ""]
      else ["namespace " ++ t.scope, "\x7b"] := by
  rw [scopeOpening, h]
  rfl

theorem exists_scopeOpening (options : OutputOptions) {t : Tree} (h : t.scope.isEmpty = false) :
    ∃ s rest, scopeOpening options t = ("namespace " ++ s) :: rest := by
  rw [scopeOpening_of_not_isEmpty options h]
  split
  · exact ⟨t.scope ++ ";", _, by rw [String.append_assoc]⟩
  · exact ⟨t.scope, _, rfl⟩

theorem scopeOpening_append_inj {t t' : Tree} (ht : t.scope.isEmpty = false) (ht' : t'.scope.isEmpty = false)
    (h : scopeOpening options t ++ ls = scopeOpening options t' ++ ms) : t.scope = t'.scope ∧ ls = ms := by
  rw [scopeOpening_of_not_isEmpty options ht, scopeOpening_of_not_isEmpty options ht'] at h
  split at h
  · obtain ⟨hline, hrest⟩ := List.cons.inj h
    rw [String.append_left_inj, String.append_right_inj] at hline
    exact ⟨hline, (List.cons.inj hrest).2⟩
  · obtain ⟨hline, hrest⟩ := List.cons.inj h
    rw [String.append_right_inj] at hline
    exact ⟨hline, (List.cons.inj hrest).2⟩

/-- What opens the scope of a tree is not mistaken for the lines of a class, nor for another scope. -/
theorem scope_eq_of_append {t t' : Tree} {base base' : Nat} {d d' : ClassDecl}
    (h : scopeOpening options t ++ (classLines options base d ++ ls) =
      scopeOpening options t' ++ (classLines options base' d' ++ ms)) :
    t.scope = t'.scope ∧ classLines options base d ++ ls = classLines options base' d' ++ ms := by
  cases hs : t.scope.isEmpty <;> cases hs' : t'.scope.isEmpty
  · exact scopeOpening_append_inj hs hs' h
  · obtain ⟨s, rest, hopening⟩ := exists_scopeOpening options hs
    rw [hopening, scopeOpening_of_isEmpty hs', List.nil_append, List.cons_append] at h
    exact absurd h.symm (classLines_append_ne _ s)
  · obtain ⟨s, rest, hopening⟩ := exists_scopeOpening options hs'
    rw [hopening, scopeOpening_of_isEmpty hs, List.nil_append, List.cons_append] at h
    exact absurd h (classLines_append_ne _ s)
  · rw [scopeOpening_of_isEmpty hs, scopeOpening_of_isEmpty hs'] at h
    rw [String.isEmpty_iff] at hs hs'
    exact ⟨hs.trans hs'.symm, h⟩

/-- The lines of a tree determine it. -/
theorem eq_of_treeLines {t t' : Tree} (ht : t.root.Consistent) (ht' : t'.root.Consistent)
    (hdepth : t.root.depth = t'.root.depth) (h : treeLines options t = treeLines options t') : t = t' := by
  have hroot (base : Nat) {ls ms : List String}
      (h : classLines options base (ofTree t) ++ ls = classLines options base (ofTree t') ++ ms) :
      t.root = t'.root := by
    have hdeclared : (ofTree t).depth = (ofTree t').depth := by
      rw [ofTree, ofTree, declare_eq, declare_eq]
      exact hdepth
    obtain ⟨hname, -, -⟩ := parts_of_classLines hdeclared (usual_of_mem_members ht.wellFormed)
      (usual_of_mem_members ht'.wellFormed) h
    rw [ofTree, ofTree, name_declare, name_declare] at hname
    exact (eq_of_classLines ht ht' hname hdepth h).1
  rw [treeLines_eq, treeLines_eq, List.append_assoc, List.append_assoc, List.append_assoc, List.append_assoc,
    List.append_cancel_left_eq] at h
  obtain ⟨hscope, hlines⟩ := scope_eq_of_append h
  have hdepths : scopeDepth options t = scopeDepth options t' := by rw [scopeDepth, scopeDepth, hscope]
  rw [hdepths] at hlines
  obtain ⟨root, scope⟩ := t
  obtain ⟨root', scope'⟩ := t'
  rw [Tree.mk.injEq]
  exact ⟨hroot _ hlines, hscope⟩

/-! ### Trees by their texts -/

/-- The names that a request gives have no line feed, nor have the keys of its document. -/
structure FreeOfLineFeeds [Json5Decoder] (r : Request) : Prop where
  rootName : '\n' ∉ r.rootName.toList
  scope : '\n' ∉ r.scope.toList
  key : ∀ members k, r.source.members r.options = .ok members → (Value.obj members).HasKey k → '\n' ∉ k.toList

theorem unbroken_feeds {s : String} (h : '\n' ∉ s.toList) : Unbroken .feeds s := by
  intro c hc
  refine beq_eq_false_iff_ne.mpr ?_
  rintro rfl
  exact h hc

/-- The text of a tree of such a request has the lines that are written for the tree. -/
theorem splitOnP_render_of_succeeded [Json5Decoder] {r : Request} {signal : Signal} {t : Tree}
    (h : (r.run signal).1 = .ok (.succeeded t)) (hr : FreeOfLineFeeds r) (options : OutputOptions) :
    (render options t).toList.splitOnP LineBreaks.feeds.isBreak = (treeLines options t).map String.toList ++ [[]] := by
  have hconsistent := consistent_of_succeeded h
  have hkeys : ∀ o, t.root.Reaches o → ∀ k ∈ o.keys, Unbroken .feeds k := by
    intro o ho k hk
    obtain ⟨members, hmembers, hkey⟩ := hasKey_of_succeeded h ⟨o, ho, hk⟩
    exact unbroken_feeds (hr.key members k hmembers hkey)
  obtain ⟨-, members, bs, -, -, rfl⟩ := Request.tree_eq_ok_iff.mp (Request.tree_of_succeeded h)
  exact splitOnP_render_of_unbroken fun l hl =>
    unbroken_of_mem_treeLines hconsistent (unbroken_feeds hr.rootName) hkeys (unbroken_feeds hr.scope) hl

/-- **The C# text determines the model.** Two trees of passes over documents whose keys have no line feed, with
such names of the root and the namespace, have the same text, whatever the options, only if they are the same tree,
with all names, depths, orders and shapes. -/
theorem render_eq_iff_of_succeeded [Json5Decoder] {r r' : Request} {signal signal' : Signal} {t t' : Tree}
    (h : (r.run signal).1 = .ok (.succeeded t)) (h' : (r'.run signal').1 = .ok (.succeeded t'))
    (hr : FreeOfLineFeeds r) (hr' : FreeOfLineFeeds r') (options : OutputOptions) :
    render options t = render options t' ↔ t = t' := by
  refine ⟨fun htext => ?_, fun htree => htree ▸ rfl⟩
  have hsplit := splitOnP_render_of_succeeded h hr options
  rw [htext, splitOnP_render_of_succeeded h' hr' options, List.append_cancel_right_eq] at hsplit
  have hlines : treeLines options t = treeLines options t' :=
    (List.map_injective_iff.mpr (fun _ _ => String.toList_injective) hsplit).symm
  have hdepth : t.root.depth = t'.root.depth := by
    rw [depth_root_of_succeeded h, depth_root_of_succeeded h']
  exact eq_of_treeLines (consistent_of_succeeded h) (consistent_of_succeeded h') hdepth hlines

/-- Two documents whose keys have one identifier: all names in the classes are the same, but no text of one tree is
one of the other. -/
theorem render_eq_iff_of_succeeded_identifiers :
    letI := Lenient.decoder
    let request (key : String) : Request := {
      source := .value (.obj [(.text key, .obj [(.text "x", .int 1)])])
      rootName := "R"
      scope := "N" }
    let inner : ObjectShape := ⟨"A", 1, [("x", .prim .integer)]⟩
    let tree (key : String) : Tree := { root := ⟨"R", 0, [(key, .object inner)]⟩, scope := "N" }
    ((request "a").run none).1 = .ok (.succeeded (tree "a")) ∧
      ((request "A").run none).1 = .ok (.succeeded (tree "A")) ∧
      ∀ options, render options (tree "a") ≠ render options (tree "A") := by
  generalize Lenient.decoder = json5
  intro request inner tree
  have hrun : ((request "a").run none).1 = .ok (.succeeded (tree "a")) := by cbv
  have hrun' : ((request "A").run none).1 = .ok (.succeeded (tree "A")) := by cbv
  have hfree (key : String) (hkey : '\n' ∉ key.toList) : FreeOfLineFeeds (request key) := by
    refine ⟨by simp [request], by simp [request], fun members k hmembers hk => ?_⟩
    have hsource : (request key).source.members (request key).options =
        .ok [(.text key, .obj [(.text "x", .int 1)])] := by cbv
    rw [hsource, Except.ok.injEq] at hmembers
    subst hmembers
    have hk : k = key ∨ k = "x" := by
      simpa [Value.HasKey, Value.parts, Value.inside, Value.partsOfMembers, eq_comm] using hk
    rcases hk with rfl | rfl
    · exact hkey
    · decide
  refine ⟨hrun, hrun', fun options htext => ?_⟩
  have hiff := render_eq_iff_of_succeeded hrun hrun' (hfree "a" (by decide)) (hfree "A" (by decide)) options
  have htree := hiff.mp htext
  simp [tree] at htree

end JsonShape.CSharp
