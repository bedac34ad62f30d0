import JsonShape.Proofs.CSharp.Literals
import JsonShape.Proofs.CSharp.Spelling

/-!
# Broken lines

When the text of a tree is split into lines, each line that was written comes out as it was written, unless a
character in it breaks it. Besides what is fixed, lines hold the names of the root and its namespace, names
that are made of identifiers, and keys; so for a root and a namespace that break no line it is up to the keys.

Which characters break a line is left open: line feeds do, and at most those do that end a line in C#.
-/

namespace JsonShape.CSharp

/-- A choice of the characters that break lines. -/
structure LineBreaks where
  isBreak : Char → Bool
  /-- Line feeds break lines. -/
  feed : isBreak '\n' = true
  /-- What breaks lines ends lines in C#. -/
  ends : ∀ c, isBreak c = true → isLineTerminator c = true

/-- Lines that are broken by line feeds only. -/
def LineBreaks.feeds : LineBreaks := ⟨(· == '\n'), rfl, fun c hc => by simp_all [isLineTerminator]⟩

variable {options : OutputOptions}

/-! ### Lines of the text -/

/-- Lines that are put together with line feeds are split into what each of them is split into. -/
theorem splitOnP_intercalate {breaks : LineBreaks} {ls : List (List Char)}
    (hne : ls ≠ []) :
    (['\n'].intercalate ls).splitOnP breaks.isBreak = ls.flatMap (·.splitOnP breaks.isBreak) := by
  induction ls with
  | nil => exact absurd rfl hne
  | cons l rest ih =>
    cases rest with
    | nil => simp
    | cons m rest =>
      rw [List.intercalate_cons_cons, List.append_assoc, List.singleton_append,
        List.splitOnP_append_cons _ _ breaks.feed, ih (List.cons_ne_nil _ _)]
      rfl

theorem treeLines_ne_nil (t : Tree) : treeLines options t ≠ [] := by
  simp [treeLines_eq, headLines]

/-- The lines of the text are what each line that is written is split into, and a last one that is empty. -/
theorem splitOnP_render {breaks : LineBreaks} (t : Tree) :
    (render options t).toList.splitOnP breaks.isBreak =
      (treeLines options t).flatMap (·.toList.splitOnP breaks.isBreak) ++ [[]] := by
  have htext : (render options t).toList =
      ['\n'].intercalate ((treeLines options t).map String.toList) ++ '\n' :: [] := by
    rw [render, String.toList_append, String.toList_intercalate]
    rfl
  rw [htext, List.splitOnP_append_cons _ _ breaks.feed, splitOnP_intercalate (by simp [treeLines_ne_nil]),
    List.flatMap_map]
  rfl

/-- No character of the text is one of the breaks. -/
def Unbroken (breaks : LineBreaks) (s : String) : Prop := ∀ c ∈ s.toList, breaks.isBreak c = false

theorem flatMap_splitOnP_of_unbroken {breaks : LineBreaks} {ls : List String}
    (h : ∀ l ∈ ls, Unbroken breaks l) : ls.flatMap (·.toList.splitOnP breaks.isBreak) = ls.map String.toList := by
  rw [List.map_eq_flatMap]
  exact List.flatMap_congr fun l hl => List.splitOnP_eq_singleton (h l hl)

/-- The lines of the text are those that are written, if none of these is broken. -/
theorem splitOnP_render_of_unbroken {breaks : LineBreaks} {t : Tree}
    (h : ∀ l ∈ treeLines options t, Unbroken breaks l) :
    (render options t).toList.splitOnP breaks.isBreak = (treeLines options t).map String.toList ++ [[]] := by
  rw [splitOnP_render, flatMap_splitOnP_of_unbroken h]

/-! ### Texts in lines -/

variable {breaks : LineBreaks} {s : String}

theorem unbroken_append {t : String} : Unbroken breaks (s ++ t) ↔ Unbroken breaks s ∧ Unbroken breaks t := by
  simp only [Unbroken, String.toList_append, List.forall_mem_append]

theorem Unbroken.append {t : String} (hs : Unbroken breaks s) (ht : Unbroken breaks t) :
    Unbroken breaks (s ++ t) :=
  unbroken_append.mpr ⟨hs, ht⟩

theorem Unbroken.intercalate (hs : Unbroken breaks s) {ss : List String}
    (h : ∀ t ∈ ss, Unbroken breaks t) : Unbroken breaks (s.intercalate ss) := by
  induction ss with
  | nil => exact fun c hc => nomatch hc
  | cons t rest ih =>
    rw [List.forall_mem_cons] at h
    cases rest with
    | nil => simpa using h.1
    | cons u rest =>
      rw [String.intercalate_cons_cons]
      exact (h.1.append hs).append (ih h.2)

theorem unbroken_of_any (h : s.toList.any isLineTerminator = false) : Unbroken breaks s := by
  intro c hc
  by_contra hbreak
  rw [Bool.not_eq_false] at hbreak
  exact List.any_eq_false.mp h c hc (breaks.ends c hbreak)

/-- A text that is written out is unbroken if none of its characters ends a line. -/
theorem unbroken_ofList {cs : List Char} (h : cs.any isLineTerminator = false) :
    Unbroken breaks (String.ofList cs) :=
  unbroken_of_any (by rwa [String.toList_ofList])

theorem unbroken_tabs (n : Nat) : Unbroken breaks (tabs n) := by
  refine unbroken_of_any (List.any_eq_false.mpr fun c hc => ?_)
  rw [eq_tab_of_mem_tabs hc]
  decide

/-- What is written for a key in documentation is unbroken with it. -/
theorem Unbroken.xmlText (h : Unbroken breaks s) : Unbroken breaks (xmlText s) := by
  intro c hc
  rw [CSharp.xmlText, String.toList_ofList, List.mem_flatMap] at hc
  obtain ⟨b, hb, hc⟩ := hc
  unfold xmlChar at hc
  split_ifs at hc
  · exact unbroken_of_any (s := "&amp;") (by decide) c hc
  · exact unbroken_of_any (s := "&lt;") (by decide) c hc
  · exact unbroken_of_any (s := "&gt;") (by decide) c hc
  · rw [List.mem_singleton.mp hc]
    exact h b hb

/-- What is written for a key as a literal is unbroken with it. -/
theorem Unbroken.stringLiteral (h : Unbroken breaks s) : Unbroken breaks (stringLiteral s) := by
  intro c hc
  by_contra hbreak
  rw [Bool.not_eq_false] at hbreak
  have hline := List.mem_filter.mpr ⟨hc, breaks.ends c hbreak⟩
  rw [filter_stringLiteral] at hline
  rw [h c (List.mem_filter.mp hline).1] at hbreak
  cases hbreak

/-! ### Names -/

/-- No character of an identifier breaks a line. -/
theorem Plain.unbroken (h : Plain s) : Unbroken breaks s := by
  refine unbroken_of_any (List.any_eq_false.mpr fun c hc hline => ?_)
  have hchar := h c hc
  simp only [isLineTerminator, Bool.or_eq_true, decide_eq_true_eq] at hline
  rcases hline with (((rfl | rfl) | rfl) | rfl) | rfl <;> revert hchar <;> decide

/-! ### Parts of lines -/

theorem unbroken_typeText {nullable : Bool} {t : TypeRef} (h : Unbroken breaks (TypeRef.baseText t.base)) :
    Unbroken breaks (t.text nullable) := by
  have hbrackets : Unbroken breaks (String.join (List.replicate t.rank "[]")) := by
    intro c hc
    rw [String.toList_join, List.mem_flatMap] at hc
    obtain ⟨s, hs, hc⟩ := hc
    rw [List.eq_of_mem_replicate hs] at hc
    exact unbroken_of_any (s := "[]") (by decide) c hc
  refine (h.append hbrackets).append ?_
  split <;> exact unbroken_ofList (by decide)

theorem unbroken_expression (ways : List NumberHandling) : Unbroken breaks (NumberHandling.expression ways) := by
  unfold NumberHandling.expression
  split
  · exact unbroken_ofList (by decide)
  · refine (unbroken_ofList (by decide)).intercalate fun s hs => ?_
    obtain ⟨way, -, rfl⟩ := List.mem_map.mp hs
    refine (unbroken_ofList (by decide)).append ?_
    cases way <;> exact unbroken_ofList (by decide)

theorem unbroken_of_mem_docLines {indent text l : String} (hindent : Unbroken breaks indent)
    (htext : Unbroken breaks text) (hl : l ∈ docLines options indent text) : Unbroken breaks l := by
  unfold docLines at hl
  split at hl
  · simp only [List.mem_cons, List.not_mem_nil, or_false] at hl
    rcases hl with rfl | rfl | rfl
    · exact hindent.append (unbroken_ofList (by decide))
    · exact (hindent.append (unbroken_ofList (by decide))).append htext
    · exact hindent.append (unbroken_ofList (by decide))
  · cases hl

theorem unbroken_closing {indent label : String} (hindent : Unbroken breaks indent)
    (hlabel : Unbroken breaks label) : Unbroken breaks (closing options indent label) := by
  refine (hindent.append (unbroken_ofList (by decide))).append ?_
  split
  · exact (unbroken_ofList (by decide)).append hlabel
  · exact unbroken_ofList (by decide)

theorem unbroken_of_mem_notice {l : String} (hl : l ∈ notice) : Unbroken breaks l := by
  have hname : Unbroken breaks generatorName := unbroken_ofList (by decide)
  simp only [notice, List.mem_cons, List.not_mem_nil, or_false] at hl
  rcases hl with rfl | rfl | rfl | rfl | rfl | rfl | rfl | rfl
  · exact unbroken_ofList (by decide)
  · exact (unbroken_ofList (by decide)).append hname
  · exact unbroken_ofList (by decide)
  · exact ((unbroken_ofList (by decide)).append hname).append (unbroken_ofList (by decide))
  · exact (((unbroken_ofList (by decide)).append hname).append (unbroken_ofList (by decide))).append hname
  · exact unbroken_ofList (by decide)
  · exact unbroken_ofList (by decide)
  · exact unbroken_ofList (by decide)

theorem unbroken_of_mem_headLines {l : String} (hl : l ∈ headLines options) : Unbroken breaks l := by
  rcases mem_headLines hl with hl | hl
  · exact unbroken_of_mem_notice hl
  · simp only [List.mem_cons, List.not_mem_nil, or_false] at hl
    rcases hl with rfl | rfl | rfl <;> exact unbroken_ofList (by decide)

/-! ### Declared classes -/

/-- What stands in the lines of a member is unbroken. -/
structure Member.WithoutBreaks (breaks : LineBreaks) (m : Member) : Prop where
  key : Unbroken breaks m.key
  base : Unbroken breaks (TypeRef.baseText m.type.base)
  name : Unbroken breaks m.name

/-- What stands in the own lines of a class is unbroken. -/
structure ClassDecl.WithoutBreaks (breaks : LineBreaks) (d : ClassDecl) : Prop where
  name : Unbroken breaks d.name
  summary : Unbroken breaks d.summary
  member : ∀ m ∈ d.members, m.WithoutBreaks breaks

theorem Member.WithoutBreaks.unbroken {m : Member} (h : m.WithoutBreaks breaks) {indent l : String}
    (hindent : Unbroken breaks indent) (hl : l ∈ memberLines options indent m) : Unbroken breaks l := by
  simp only [memberLines, List.mem_append, List.mem_cons, List.not_mem_nil, or_false] at hl
  rcases hl with ((hl | rfl) | hl) | rfl | rfl
  · exact unbroken_of_mem_docLines hindent
      (((unbroken_ofList (by decide)).append h.key.xmlText).append (unbroken_ofList (by decide))) hl
  · exact ((hindent.append (unbroken_ofList (by decide))).append h.key.stringLiteral).append
      (unbroken_ofList (by decide))
  · split at hl
    · rw [List.mem_singleton.mp hl]
      exact ((hindent.append (unbroken_ofList (by decide))).append (unbroken_expression _)).append
        (unbroken_ofList (by decide))
    · cases hl
  · exact ((((hindent.append (unbroken_ofList (by decide))).append (unbroken_typeText h.base)).append
      (unbroken_ofList (by decide))).append h.name).append (unbroken_ofList (by decide))
  · exact unbroken_ofList (by decide)

/-- The own lines of a class are unbroken if what stands in them is. -/
theorem ClassDecl.WithoutBreaks.unbroken {d : ClassDecl} (h : d.WithoutBreaks breaks) {base : Nat} {l : String}
    (hl : l ∈ d.ownLines options base) : Unbroken breaks l := by
  have hindent : Unbroken breaks (tabs (base + d.depth)) := unbroken_tabs _
  have htab : Unbroken breaks "\t" := unbroken_ofList (by decide)
  have hinner := hindent.append htab
  have hhead : Unbroken breaks (classHead d.name) := (unbroken_ofList (by decide)).append h.name
  simp only [ownLines, constructorLines, List.mem_append, List.mem_flatMap, List.mem_cons, List.not_mem_nil,
    or_false] at hl
  rcases hl with (((hl | rfl | rfl) | ⟨m, hm, hl⟩) | hl | rfl) | rfl
  · exact unbroken_of_mem_docLines hindent h.summary hl
  · exact hindent.append hhead
  · exact hindent.append (unbroken_ofList (by decide))
  · exact (h.member m hm).unbroken hinner hl
  · exact unbroken_of_mem_docLines hinner
      (((unbroken_ofList (by decide)).append h.name).append (unbroken_ofList (by decide))) hl
  · exact ((hinner.append (unbroken_ofList (by decide))).append h.name).append (unbroken_ofList (by decide))
  · exact unbroken_closing hindent hhead

/-- A class is declared without breaks for a well-formed object if its name, its summary and the keys are. -/
theorem withoutBreaks_declare {o : ObjectShape} (ho : o.WellFormed) (hkeys : ∀ k ∈ o.keys, Unbroken breaks k)
    {name summary : String} (hname : Unbroken breaks name) (hsummary : Unbroken breaks summary)
    (enclosing : List String) : (declare o name summary enclosing).WithoutBreaks breaks := by
  rw [declare_eq]
  refine ⟨hname, hsummary, fun m hm => ?_⟩
  obtain ⟨⟨k, t⟩, ht, rfl⟩ := List.mem_map.mp hm
  exact ⟨hkeys k (ObjectShape.mem_keys.mpr ⟨t, ht⟩), (usual_ofShape ho ht _).plain.unbroken,
    (plain_getD_lookup (fun _ => plain_of_mem_memberNames) k).unbroken⟩

/-- The names and summaries of the classes inside one that is declared for a well-formed object. -/
theorem unbroken_of_mem_nested {o : ObjectShape} (ho : o.WellFormed) {name summary : String}
    {enclosing : List String} {e : ClassDecl} (he : e ∈ (declare o name summary enclosing).nested) :
    Unbroken breaks e.name ∧ Unbroken breaks e.summary := by
  rw [declare_eq] at he
  obtain ⟨u, hu, rfl⟩ := List.mem_map.mp he
  rw [declare_eq]
  refine ⟨(plain_getD_lookup (fun _ => plain_of_mem_nestedNames ho) _).unbroken, ?_⟩
  have hmembers : ∀ p ∈ memberNames o name, Plain p.2 := fun _ => plain_of_mem_memberNames
  have href : Unbroken breaks _ := (plain_getD_lookup hmembers ((o.referencingKey? u.name).getD "")).unbroken
  refine ((((unbroken_ofList (by decide)).append ?_).append (unbroken_ofList (by decide))).append href).append
    (unbroken_ofList (by decide))
  show Unbroken breaks (if _ then "an element of" else "a")
  split <;> exact unbroken_ofList (by decide)

variable {t : Tree} (ht : t.root.Consistent) (hroot : Unbroken breaks t.root.name)
  (hkeys : ∀ o, t.root.Reaches o → ∀ k ∈ o.keys, Unbroken breaks k)

include ht hroot hkeys

/-- The classes of a tree are declared without breaks if the name of its root and its keys are unbroken. -/
theorem withoutBreaks_of_declaredIn {around : List ClassDecl} {d : ClassDecl}
    (h : DeclaredIn (ofTree t) around d) : d.WithoutBreaks breaks := by
  cases h with
  | root =>
    exact withoutBreaks_declare (ht _ .refl) (hkeys _ .refl) hroot
      (((unbroken_ofList (by decide)).append hroot).append (unbroken_ofList (by decide))) []
  | nested hd he =>
    obtain ⟨o, ho, _, hfor⟩ := exists_isFor hd
    obtain ⟨u, hu, summary, hinner⟩ := exists_isFor (.nested hd he)
    rw [hfor] at he
    obtain ⟨hname, hsummary⟩ := unbroken_of_mem_nested (ht o ho) he
    rw [hinner, declare_eq] at hsummary
    rw [hinner]
    exact withoutBreaks_declare (ht u hu) (hkeys u hu) hname hsummary _

/-- No line that is written for a tree is broken. -/
theorem unbroken_of_mem_treeLines (hscope : Unbroken breaks t.scope) {l : String} (hl : l ∈ treeLines options t) :
    Unbroken breaks l := by
  have hlabel : Unbroken breaks ("namespace " ++ t.scope) := (unbroken_ofList (by decide)).append hscope
  rw [treeLines_eq, List.mem_append, List.mem_append, List.mem_append] at hl
  rcases hl with ((hl | hl) | hl) | hl
  · exact unbroken_of_mem_headLines hl
  · have hl := mem_scopeOpening hl
    simp only [List.mem_cons, List.not_mem_nil, or_false] at hl
    rcases hl with rfl | rfl | rfl | rfl
    · exact hlabel.append (unbroken_ofList (by decide))
    · exact hlabel
    · exact unbroken_ofList (by decide)
    · exact unbroken_ofList (by decide)
  · rcases exists_declaredIn_of_mem_classLines .root hl with rfl | ⟨around, d, hd, hl⟩
    · exact unbroken_ofList (by decide)
    · exact (withoutBreaks_of_declaredIn ht hroot hkeys hd).unbroken hl
  · unfold scopeClosing at hl
    split at hl
    · cases hl
    · rw [List.mem_singleton.mp hl]
      exact unbroken_closing (unbroken_ofList (by decide)) hlabel

end JsonShape.CSharp
