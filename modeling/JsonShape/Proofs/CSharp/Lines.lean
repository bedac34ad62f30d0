import JsonShape.CSharp.Source
import JsonShape.Proofs.CSharp.Scoping

/-!
# Lines of classes

The text of a tree as a list of lines: the head, what opens and closes the namespace, and between these the
lines of the declared classes. Those of a class are its own ones and those of the classes inside it, so a
line of the root's class is an own line of one of the declared classes, or empty.
-/

namespace JsonShape.CSharp

variable {options : OutputOptions} {base : Nat} {l : String}

/-! ### Parts of the text -/

/-- The lines before the classes that say which namespace they are in. -/
def scopeOpening (options : OutputOptions) (t : Tree) : List String :=
  if t.scope.isEmpty then []
  else if options.fileScopedNamespaces then ["namespace " ++ t.scope ++ ";", ""]
  else ["namespace " ++ t.scope, "\x7b"]

/-- The lines after the classes that end a block for their namespace. -/
def scopeClosing (options : OutputOptions) (t : Tree) : List String :=
  if t.scope.isEmpty || options.fileScopedNamespaces then []
  else [closing options "" ("namespace " ++ t.scope)]

/-- The number of blocks around the classes. -/
def scopeDepth (options : OutputOptions) (t : Tree) : Nat :=
  if t.scope.isEmpty || options.fileScopedNamespaces then 0 else 1

theorem treeLines_eq (options : OutputOptions) (t : Tree) :
    treeLines options t = headLines options ++ scopeOpening options t ++
      classLines options (scopeDepth options t) (ofTree t) ++ scopeClosing options t := by
  unfold treeLines scopeOpening scopeClosing scopeDepth
  by_cases hscope : t.scope.isEmpty = true
  · simp [hscope]
  · by_cases hfile : options.fileScopedNamespaces = true
    · simp [hscope, hfile]
    · simp [hscope, hfile]

theorem mem_headLines (h : l ∈ headLines options) :
    l ∈ notice ∨ l ∈ ["", "#nullable enable", "using System.Text.Json.Serialization;"] := by
  have hnullable : l ∈ (if options.emitNullable then ["#nullable enable", ""] else []) →
      l = "#nullable enable" ∨ l = "" := by
    split <;> simp
  simp only [headLines, List.mem_append, List.mem_cons, List.not_mem_nil, or_false] at h ⊢
  tauto

theorem mem_scopeOpening {t : Tree} (h : l ∈ scopeOpening options t) :
    l ∈ ["namespace " ++ t.scope ++ ";", "namespace " ++ t.scope, "", "\x7b"] := by
  unfold scopeOpening at h
  split_ifs at h
  · cases h
  · rcases List.mem_pair.mp h with rfl | rfl <;> simp
  · rcases List.mem_pair.mp h with rfl | rfl <;> simp

/-- The lines of a class apart from those of the classes inside it. -/
def ClassDecl.ownLines (options : OutputOptions) (base : Nat) (d : ClassDecl) : List String :=
  let indent := tabs (base + d.depth)
  let inner := indent ++ "\t"
  docLines options indent d.summary ++ [indent ++ classHead d.name, indent ++ "\x7b"] ++
    d.members.flatMap (memberLines options inner) ++ constructorLines options inner d.name ++
    [closing options indent (classHead d.name)]

theorem mem_classLines {d : ClassDecl} : l ∈ classLines options base d ↔
    l ∈ d.ownLines options base ∨ l ∈ nestedLines options base d.nested := by
  obtain ⟨name, summary, depth, members, nested⟩ := d
  rw [classLines, ClassDecl.ownLines]
  simp only [List.mem_append]
  tauto

theorem mem_nestedLines {ds : List ClassDecl} : l ∈ nestedLines options base ds ↔
    ∃ d ∈ ds, l = "" ∨ l ∈ classLines options base d := by
  induction ds with
  | nil => simp [nestedLines]
  | cons d rest ih => simp [nestedLines, ih, or_assoc]

theorem classHead_eq (name : String) : classHead name = "public sealed class " ++ name := rfl

/-! ### Indents -/

theorem tabs_succ (n : Nat) : tabs n ++ "\t" = tabs (n + 1) := by
  rw [tabs, tabs, List.replicate_succ', String.ofList_append]

theorem eq_tab_of_mem_tabs {n : Nat} {c : Char} (h : c ∈ (tabs n).toList) : c = '\t' := by
  rw [tabs, String.toList_ofList] at h
  exact List.eq_of_mem_replicate h

/-- The lines of a class, one after another, and what comes after them. -/
theorem classLines_append (d : ClassDecl) (ls : List String) : classLines options base d ++ ls =
    docLines options (tabs (base + d.depth)) d.summary ++
      (tabs (base + d.depth) ++ classHead d.name) :: (tabs (base + d.depth) ++ "\x7b") ::
        (d.members.flatMap (memberLines options (tabs (base + d.depth + 1))) ++
          (constructorLines options (tabs (base + d.depth + 1)) d.name ++
            (nestedLines options base d.nested ++
              closing options (tabs (base + d.depth)) (classHead d.name) :: ls))) := by
  obtain ⟨name, summary, depth, members, nested⟩ := d
  simp only [classLines, tabs_succ, List.append_assoc, List.cons_append, List.nil_append]

/-! ### Lines of declared classes -/

/-- Induction over a class and the classes inside it. -/
@[elab_as_elim]
theorem ClassDecl.induction {P : ClassDecl → Prop} (step : ∀ d, (∀ e ∈ d.nested, P e) → P d) : ∀ d, P d
  | ⟨name, summary, depth, members, nested⟩ => step _ fun e he =>
    have hlt : sizeOf e < sizeOf (ClassDecl.mk name summary depth members nested) :=
      Nat.lt_of_lt_of_le (List.sizeOf_lt_of_mem he) (by simp)
    ClassDecl.induction step e
  termination_by d => sizeOf d

variable {root d : ClassDecl} {around : List ClassDecl}

/-- The lines of a declared class are lines of the root's class. -/
theorem mem_classLines_of_declaredIn (h : DeclaredIn root around d) (hl : l ∈ classLines options base d) :
    l ∈ classLines options base root := by
  induction h with
  | root => exact hl
  | nested _ he ih => exact ih (mem_classLines.mpr (.inr (mem_nestedLines.mpr ⟨_, he, .inr hl⟩)))

/-- A line of a declared class is empty, or an own line of it or of a class inside it. -/
theorem exists_declaredIn_of_mem_classLines (h : DeclaredIn root around d) (hl : l ∈ classLines options base d) :
    l = "" ∨ ∃ around e, DeclaredIn root around e ∧ l ∈ e.ownLines options base := by
  induction d using ClassDecl.induction generalizing around with
  | step d ih =>
    rcases mem_classLines.mp hl with hl | hl
    · exact .inr ⟨around, d, h, hl⟩
    · obtain ⟨e, he, hl⟩ := mem_nestedLines.mp hl
      rcases hl with rfl | hl
      · exact .inl rfl
      · exact ih e he (.nested h he) hl

/-- The lines of each member are lines of the text. -/
theorem mem_treeLines_of_mem_memberLines {t : Tree} (h : DeclaredIn (ofTree t) around d) {m : Member}
    (hm : m ∈ d.members) (hl : l ∈ memberLines options (tabs (scopeDepth options t + d.depth + 1)) m) :
    l ∈ treeLines options t := by
  have hown : l ∈ d.ownLines options (scopeDepth options t) := by
    rw [← tabs_succ] at hl
    rw [ClassDecl.ownLines]
    simp only [List.mem_append, List.mem_flatMap]
    exact .inl (.inl (.inr ⟨m, hm, hl⟩))
  have hclass := mem_classLines_of_declaredIn h (mem_classLines.mpr (.inl hown))
  rw [treeLines_eq]
  exact List.mem_append_left _ (List.mem_append_right _ hclass)

/-! ### Types in the text -/

/-- The name of a class is written as it is, with a pair of brackets for each array around it. -/
theorem TypeRef.text_of_named {t : TypeRef} {c : String} (h : t.base = .named c) (nullable : Bool) :
    t.text nullable = c ++ String.join (List.replicate t.rank "[]") ++ if nullable then "?" else "" := by
  have href : t.isReference = true := by simp [isReference, isNumeric, h]
  rw [text, h, href, Bool.and_true, baseText]

/-- The line of the text that declares a property with an object inside has the name that means the class for
just that object. -/
theorem ClassDecl.WellScoped.exists_line {t : Tree} {o u : ObjectShape} {k : String} {s : Shape}
    (hscoped : d.WellScoped o (ofTree t) around) (hd : DeclaredIn (ofTree t) around d)
    (hs : (k, s) ∈ o.properties) (hu : s.innerObject? = some u) (options : OutputOptions) :
    ∃ e ∈ d.nested, ∃ name, (memberNames o d.name).lookup k = some name ∧
      resolve? (ofTree t) (d :: around) e.name = some e ∧ e.IsFor u (d :: around) ∧
      tabs (scopeDepth options t + d.depth + 1) ++ "public " ++
        (e.name ++ String.join (List.replicate s.arrayDepth "[]") ++ if options.emitNullable then "?" else "") ++
        " " ++ name ++ " \x7b get; set; \x7d" ∈ treeLines options t := by
  obtain ⟨m, hm, -, hname, hrank, -, hobject⟩ := hscoped.member k s hs
  obtain ⟨e, he, hbase, hmeans, hfor⟩ := hobject u hu
  refine ⟨e, he, m.name, hname, hmeans, hfor, mem_treeLines_of_mem_memberLines hd hm ?_⟩
  rw [← hrank, ← TypeRef.text_of_named hbase, memberLines]
  exact List.mem_append_right _ (List.mem_cons_self ..)

end JsonShape.CSharp
