import JsonShape.Document.Lenient
import JsonShape.Proofs.CSharp.Breaks

/-!
# Documentation and code

Documentation is written in comment lines of its own. So of the lines that are written for a tree with
documentation, those that are no comment lines are the lines that are written without it, for every tree. This
carries over to the lines of the text where no line is broken.
-/

namespace JsonShape.CSharp

variable {options : OutputOptions}

/-! ### Comment lines -/

/-- A comment line: its first characters after tabs are three slashes. -/
def isCommentLine (line : List Char) : Bool := ['/', '/', '/'].isPrefixOf (line.dropWhile (· = '\t'))

/-- Some lines without the comment lines among them. -/
def withoutComments (lines : List String) : List String := lines.filter (!isCommentLine ·.toList)

@[simp]
theorem isCommentLine_tabs (n : Nat) (cs : List Char) :
    isCommentLine ((tabs n).toList ++ cs) = isCommentLine cs := by
  rw [isCommentLine, List.dropWhile_append_of_pos, isCommentLine]
  exact fun c hc => by simp [eq_tab_of_mem_tabs hc]

@[simp]
theorem isCommentLine_nil : isCommentLine [] = false := rfl

@[simp]
theorem isCommentLine_slashes (cs : List Char) : isCommentLine ('/' :: '/' :: '/' :: cs) = true := rfl

@[simp]
theorem isCommentLine_cons {c : Char} (htab : c ≠ '\t') (hslash : c ≠ '/') (cs : List Char) :
    isCommentLine (c :: cs) = false := by
  rw [isCommentLine, List.dropWhile_cons_of_neg (by simpa using htab), List.isPrefixOf, Bool.and_eq_false_iff]
  exact .inl (by simpa using hslash.symm)

theorem withoutComments_append (ls ms : List String) :
    withoutComments (ls ++ ms) = withoutComments ls ++ withoutComments ms := List.filter_append ..

theorem withoutComments_eq_self {ls : List String} (h : ∀ l ∈ ls, isCommentLine l.toList = false) :
    withoutComments ls = ls := List.filter_eq_self.mpr fun l hl => by simp [h l hl]

/-! ### Lines without documentation -/

theorem docLines_false (indent text : String) :
    docLines { options with emitDocumentation := false } indent text = [] := rfl

theorem isCommentLine_doc (n : Nat) (text : String) : isCommentLine (tabs n ++ "/// " ++ text).toList = true := by
  simp

/-- A documentation comment has comment lines only. -/
theorem withoutComments_docLines (n : Nat) (text : String) :
    withoutComments (docLines options (tabs n) text) = [] := by
  unfold docLines
  split
  · simp [withoutComments]
  · rfl

theorem memberLines_eq (indent : String) (m : Member) : memberLines options indent m =
    docLines options indent s!"Gets or sets the {xmlText m.key}." ++
      memberLines { options with emitDocumentation := false } indent m := by
  simp only [memberLines, List.append_assoc]
  rfl

theorem doc_mem_memberLines (options : OutputOptions) (indent : String) (m : Member) :
    indent ++ "/// " ++ s!"Gets or sets the {xmlText m.key}." ∈
      memberLines { options with emitDocumentation := true } indent m := by
  rw [memberLines_eq, docLines, if_pos rfl]
  simp

theorem not_isCommentLine_of_mem_memberLines {n : Nat} {m : Member} {l : String}
    (h : l ∈ memberLines { options with emitDocumentation := false } (tabs n) m) :
    isCommentLine l.toList = false := by
  simp only [memberLines, docLines, Bool.false_eq_true, if_false, List.nil_append, List.mem_append,
    List.mem_cons, List.not_mem_nil, or_false] at h
  rcases h with (rfl | h) | rfl | rfl
  · simp [toString]
  · split at h
    · simp [List.mem_singleton.mp h, toString]
    · cases h
  · simp [toString]
  · rfl

/-- What is written for a member without its documentation. -/
theorem withoutComments_memberLines (n : Nat) (m : Member) :
    withoutComments (memberLines options (tabs n) m) =
      memberLines { options with emitDocumentation := false } (tabs n) m := by
  rw [memberLines_eq, withoutComments_append, withoutComments_docLines, List.nil_append,
    withoutComments_eq_self fun _ => not_isCommentLine_of_mem_memberLines]

theorem withoutComments_flatMap_memberLines (n : Nat) (members : List Member) :
    withoutComments (members.flatMap (memberLines options (tabs n))) =
      members.flatMap (memberLines { options with emitDocumentation := false } (tabs n)) := by
  rw [withoutComments, List.filter_flatMap]
  exact List.flatMap_congr fun m _ => withoutComments_memberLines n m

theorem withoutComments_constructorLines (n : Nat) (name : String) :
    withoutComments (constructorLines options (tabs n) name) =
      constructorLines { options with emitDocumentation := false } (tabs n) name := by
  have hline : ∀ l ∈ [s!"{tabs n}public {name}() \x7b \x7d"], isCommentLine l.toList = false :=
    List.forall_mem_singleton.mpr (by simp [toString])
  rw [constructorLines, constructorLines, withoutComments_append, withoutComments_docLines, docLines_false,
    withoutComments_eq_self hline]

theorem withoutComments_head (n : Nat) (name : String) :
    withoutComments [tabs n ++ classHead name, tabs n ++ "\x7b"] =
      [tabs n ++ classHead name, tabs n ++ "\x7b"] := by
  refine withoutComments_eq_self (List.forall_mem_cons.mpr ⟨?_, List.forall_mem_singleton.mpr ?_⟩)
  · simp [classHead_eq]
  · simp

theorem withoutComments_closing (n : Nat) (label : String) :
    withoutComments [closing options (tabs n) label] = [closing options (tabs n) label] :=
  withoutComments_eq_self (List.forall_mem_singleton.mpr (by simp [closing, String.append_assoc]))

/-- What is written for a class without its documentation. -/
theorem withoutComments_classLines (base : Nat) (d : ClassDecl) :
    withoutComments (classLines options base d) =
      classLines { options with emitDocumentation := false } base d := by
  induction d using ClassDecl.induction with
  | step d ih =>
    -- the classes inside are a list of which the induction knows each, so it is gone through by its own induction
    have hnested : ∀ ds : List ClassDecl, (∀ e ∈ ds, e ∈ d.nested) →
        withoutComments (nestedLines options base ds) =
          nestedLines { options with emitDocumentation := false } base ds := by
      intro ds hds
      induction ds with
      | nil => rfl
      | cons e rest ihrest =>
        rw [List.forall_mem_cons] at hds
        rw [nestedLines, List.cons_append, ← List.singleton_append, withoutComments_append, withoutComments_append,
          ih e hds.1, ihrest hds.2]
        rfl
    have hinner := hnested d.nested fun _ he => he
    obtain ⟨name, summary, depth, members, nested⟩ := d
    simp only [classLines, withoutComments_append, withoutComments_docLines, withoutComments_head, tabs_succ,
      withoutComments_flatMap_memberLines, withoutComments_constructorLines, withoutComments_closing, hinner]
    rfl

theorem withoutComments_headLines : withoutComments (headLines options) = headLines options := by
  refine withoutComments_eq_self fun l hl => ?_
  rcases mem_headLines hl with hl | hl
  · simp only [notice, List.mem_cons, List.not_mem_nil, or_false] at hl
    rcases hl with rfl | hl
    · rfl
    · rcases hl with rfl | rfl | rfl | rfl | rfl | rfl | rfl <;> simp [toString]
  · simp only [List.mem_cons, List.not_mem_nil, or_false] at hl
    rcases hl with rfl | rfl | rfl <;> simp

theorem withoutComments_scopeOpening (t : Tree) :
    withoutComments (scopeOpening options t) = scopeOpening options t := by
  refine withoutComments_eq_self fun l hl => ?_
  have hl := mem_scopeOpening hl
  simp only [List.mem_cons, List.not_mem_nil, or_false] at hl
  rcases hl with rfl | rfl | rfl | rfl <;> simp

theorem withoutComments_scopeClosing (t : Tree) :
    withoutComments (scopeClosing options t) = scopeClosing options t := by
  unfold scopeClosing
  split
  · rfl
  · exact withoutComments_closing 0 _

/-- **The lines of a tree with documentation, without the comment lines, are those without documentation.** -/
theorem withoutComments_treeLines (t : Tree) :
    withoutComments (treeLines options t) = treeLines { options with emitDocumentation := false } t := by
  rw [treeLines_eq, treeLines_eq, withoutComments_append, withoutComments_append, withoutComments_append,
    withoutComments_headLines, withoutComments_scopeOpening, withoutComments_classLines,
    withoutComments_scopeClosing]
  rfl

/-! ### Texts with and without documentation -/

/-- The lines of the text that are no comment lines, if none is broken. -/
theorem filter_splitOnP_render {breaks : LineBreaks} {t : Tree}
    (h : ∀ l ∈ treeLines options t, Unbroken breaks l) :
    ((render options t).toList.splitOnP breaks.isBreak).filter (!isCommentLine ·) =
      (withoutComments (treeLines options t)).map String.toList ++ [[]] := by
  rw [splitOnP_render_of_unbroken h, List.filter_append, List.filter_map]
  rfl

/-- **Documentation does not change the code, if no key breaks a line.** The root and the namespace of an
inferred tree may have any names that break no line, and lines may be broken by line feeds or by more of the
characters that end a line in C#. Where the keys of the tree have no such characters, the lines of the text
with documentation that are no comment lines are just the lines of the text without documentation, whatever
the other options; and the documentation of each member stands in a comment line of its own, as a whole. -/
theorem render_without_documentation [Json5Decoder] {r : Request} {signal : Signal} {t : Tree}
    (h : (r.run signal).1 = .ok (.succeeded t)) (options : OutputOptions) (breaks : LineBreaks)
    (hname : Unbroken breaks r.rootName) (hscope : Unbroken breaks r.scope)
    (hkeys : ∀ o, t.root.Reaches o → ∀ k ∈ o.keys, Unbroken breaks k) :
    let lines (documented : Bool) : List (List Char) :=
      (render { options with emitDocumentation := documented } t).toList.splitOnP breaks.isBreak
    (lines true).filter (!isCommentLine ·) = lines false ∧
      ∀ around d, DeclaredIn (ofTree t) around d → ∀ m ∈ d.members,
        ∃ n, (tabs n ++ "/// " ++ s!"Gets or sets the {xmlText m.key}.").toList ∈
          (lines true).filter isCommentLine := by
  have hconsistent := consistent_of_succeeded h
  obtain ⟨-, members, bs, -, -, rfl⟩ := Request.tree_eq_ok_iff.mp (Request.tree_of_succeeded h)
  have hlines : ∀ documented, ∀ l ∈ treeLines { options with emitDocumentation := documented }
      ⟨settledObject r.rootName 0 bs, r.scope⟩, Unbroken breaks l :=
    fun _ _ => unbroken_of_mem_treeLines hconsistent hname hkeys hscope
  refine ⟨?_, fun around d hd m hm => ?_⟩
  · refine ((filter_splitOnP_render (hlines true)).trans ?_).trans
      (splitOnP_render_of_unbroken (hlines false)).symm
    rw [withoutComments_treeLines]
  · obtain ⟨n, hn⟩ : ∃ n, tabs n ++ "/// " ++ s!"Gets or sets the {xmlText m.key}." ∈
        treeLines { options with emitDocumentation := true } ⟨settledObject r.rootName 0 bs, r.scope⟩ :=
      ⟨_, mem_treeLines_of_mem_memberLines hd hm (doc_mem_memberLines options _ m)⟩
    refine ⟨n, List.mem_filter.mpr ⟨?_, isCommentLine_doc _ _⟩⟩
    show _ ∈ (render { options with emitDocumentation := true } _).toList.splitOnP breaks.isBreak
    rw [splitOnP_render_of_unbroken (hlines true)]
    exact List.mem_append_left _ (List.mem_map_of_mem hn)

/-- Keys that start like a comment line or have a carriage return and brackets, where lines end with line feeds
only. -/
theorem render_without_documentation_carriage_return :
    letI := Lenient.decoder
    let key := "a\r<b>"
    let request : Request := {
      source := .value (.obj [(.text "/// x", .obj [(.text key, .int 1)])])
      rootName := "Root" }
    let inner : ObjectShape := ⟨"X", 1, [(key, .prim .integer)]⟩
    let tree : Tree := { root := ⟨"Root", 0, [("/// x", .object inner)]⟩ }
    let lines (documented : Bool) : List (List Char) :=
      (render { emitDocumentation := documented } tree).toList.splitOn '\n'
    (request.run none).1 = .ok (.succeeded tree) ∧ (lines true).filter (!isCommentLine ·) = lines false ∧
      xmlText key = "a\r&lt;b&gt;" ∧
      ∃ n, (tabs n ++ "/// " ++ s!"Gets or sets the {xmlText key}.").toList ∈
        (lines true).filter isCommentLine := by
  generalize Lenient.decoder = json5
  intro key request inner tree lines
  have hrun : (request.run none).1 = .ok (.succeeded tree) := by cbv
  have hreaches : ∀ o, tree.root.Reaches o → o = tree.root ∨ o = inner := by
    intro o ho
    induction ho with
    | refl => exact .inl rfl
    | tail _ hu ih =>
      obtain ⟨k, t, ht, hu⟩ := hu
      rcases ih with rfl | rfl
      · obtain ⟨-, rfl⟩ := Prod.mk.inj (List.mem_singleton.mp ht)
        exact .inr (Option.some.inj hu).symm
      · obtain ⟨-, rfl⟩ := Prod.mk.inj (List.mem_singleton.mp ht)
        cases hu
  have hkeys : ∀ o, tree.root.Reaches o → ∀ k ∈ o.keys, Unbroken .feeds k := by
    intro o ho k hk
    rcases hreaches o ho with rfl | rfl
    · rw [List.mem_singleton.mp hk]
      simp [Unbroken, LineBreaks.feeds]
    · rw [List.mem_singleton.mp hk]
      simp [Unbroken, LineBreaks.feeds, key]
  have hnested : (ofTree tree).nested.map (·.members) = [[⟨key, ⟨.primitive .integer, 0⟩, "AB"⟩]] := by cbv
  obtain ⟨e, he, hm⟩ := List.map_eq_singleton_iff.mp hnested
  have hd : DeclaredIn (ofTree tree) [ofTree tree] e := .nested .root (he ▸ List.mem_singleton_self e)
  obtain ⟨hlines, hdoc⟩ := render_without_documentation hrun {} .feeds
    (by simp [Unbroken, LineBreaks.feeds, request]) (by simp [Unbroken, LineBreaks.feeds, request]) hkeys
  have hmem : ⟨key, ⟨.primitive .integer, 0⟩, "AB"⟩ ∈ e.members := hm ▸ List.mem_singleton_self _
  have hmember := hdoc _ e hd _ hmem
  exact ⟨hrun, hlines, by decide, hmember⟩

/-- A document whose key has a line feed: the second part of the line that documents it stands in a line that is
no comment line, and the lines that are none are not those of the text without documentation. -/
theorem documentation_of_line_feed :
    letI := Lenient.decoder
    let request : Request := { source := .text "\x7b\"a\\nb\": 1\x7d", rootName := "Root" }
    let tree : Tree := { root := ⟨"Root", 0, [("a\nb", .prim .integer)]⟩ }
    let lines (documented : Bool) : List (List Char) :=
      (render { emitDocumentation := documented } tree).toList.splitOn '\n'
    (request.run none).1 = .ok (.succeeded tree) ∧ "b.".toList ∈ (lines true).filter (!isCommentLine ·) ∧
      (lines true).filter (!isCommentLine ·) ≠ lines false := by
  generalize Lenient.decoder = json5
  intro request tree lines
  have hclass : ofTree tree = ⟨"Root", "Represents Root.", 0, [⟨"a\nb", ⟨.primitive .integer, 0⟩, "AB"⟩], []⟩ := by
    cbv
  have hlines : ∀ documented, lines documented =
      (headLines {}).flatMap (·.toList.splitOn '\n') ++
        ((classLines { emitDocumentation := documented } 0 (ofTree tree)).flatMap (·.toList.splitOn '\n') ++
          [[]]) := by
    intro documented
    show (render _ tree).toList.splitOnP LineBreaks.feeds.isBreak = _
    rw [splitOnP_render, treeLines_eq, List.flatMap_append, List.flatMap_append, List.flatMap_append]
    simp [scopeOpening, scopeClosing, scopeDepth, tree]
    rfl
  have hhead : ((headLines {}).flatMap (·.toList.splitOn '\n')).filter (!isCommentLine ·) =
      (headLines {}).flatMap (·.toList.splitOn '\n') := by
    show ((headLines {}).flatMap (·.toList.splitOnP LineBreaks.feeds.isBreak)).filter (!isCommentLine ·) =
      (headLines {}).flatMap (·.toList.splitOnP LineBreaks.feeds.isBreak)
    rw [flatMap_splitOnP_of_unbroken fun _ => unbroken_of_mem_headLines, List.filter_map]
    exact congrArg (List.map String.toList) withoutComments_headLines
  -- the lines before the class are the same in both, so that only its few lines have to be looked at
  rw [hlines, hlines, hclass, List.filter_append, hhead]
  refine ⟨by cbv, List.mem_append_right _ (by decide), fun heq => ?_⟩
  exact absurd (List.append_cancel_left heq) (by decide)

end JsonShape.CSharp
