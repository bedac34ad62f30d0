import JsonShape.Proofs.CSharp.Literals
import JsonShape.Proofs.CSharp.Spelling

/-!
# Members and their lines

The lines of the members of a class determine the members: the key of each by its literal, the type by the word
that it starts with and the brackets behind it, and the name. Whatever the options, what is written for one member
cannot be the start of what is written for another, nor of the constructor that comes after the members.
-/

namespace JsonShape.CSharp

/-! ### Words -/

/-- Where texts that continue words are equal, the words are, and what continues them. -/
theorem append_inj_of_forall {p : Char → Bool} {a b s t : List Char} (ha : ∀ c ∈ a, p c = true)
    (hb : ∀ c ∈ b, p c = true) (hs : ∀ c ∈ s.head?, p c = false) (ht : ∀ c ∈ t.head?, p c = false)
    (h : a ++ s = b ++ t) : a = b ∧ s = t := by
  have htake (a s : List Char) (ha : ∀ c ∈ a, p c = true) (hs : ∀ c ∈ s.head?, p c = false) :
      (a ++ s).takeWhile p = a := by
    rw [List.takeWhile_append_of_pos ha]
    cases s with
    | nil => rw [List.takeWhile_nil, List.append_nil]
    | cons c s => rw [List.takeWhile_cons_of_neg (by simp [hs c rfl]), List.append_nil]
  have hab : a = b := by rw [← htake a s ha hs, h, htake b t hb ht]
  subst hab
  exact ⟨rfl, List.append_cancel_left h⟩

/-- Words before a blank are equal where the texts are. -/
theorem append_blank_inj {a b s t : String} (ha : ∀ c ∈ a.toList, c ≠ ' ') (hb : ∀ c ∈ b.toList, c ≠ ' ')
    (h : a ++ (" " ++ s) = b ++ (" " ++ t)) : a = b ∧ s = t := by
  have hlist := congrArg String.toList h
  simp only [String.toList_append] at hlist
  have hblank (u : List Char) : ∀ c ∈ (" ".toList ++ u).head?, decide (c ≠ ' ') = false := by simp
  obtain ⟨hab, hst⟩ := append_inj_of_forall (by simpa using ha) (by simpa using hb) (hblank _) (hblank _) hlist
  exact ⟨String.toList_injective hab, String.toList_injective (List.append_cancel_left hst)⟩

/-- Lines of one indent differ if they start differently behind it. -/
theorem line_ne {indent a b : String} (h : a.toList.head? ≠ b.toList.head?) : indent ++ a ≠ indent ++ b :=
  fun hline => h (by rw [(String.append_right_inj indent).mp hline])

theorem Plain.ne_blank {s : String} (h : Plain s) : ∀ c ∈ s.toList, c ≠ ' ' := by
  rintro c hc rfl
  exact absurd (h ' ' hc) (by decide)

/-! ### Types -/

theorem primitiveName_injective : Function.Injective primitiveName := by
  intro p q h
  cases p <;> cases q <;> first | rfl | exact absurd h (by decide)

theorem baseText_injective {b b' : BaseType} (hb : b.Usual) (hb' : b'.Usual)
    (h : TypeRef.baseText b = TypeRef.baseText b') : b = b' := by
  have hmixed (p : Primitive) (s : String) : primitiveName p ≠ "Json" ++ s := by
    intro h
    have hhead := congrArg (·.toList.head?) h
    rw [String.toList_append] at hhead
    cases p <;> simp [primitiveName] at hhead
  cases b with
  | primitive p =>
    cases b' with
    | primitive q => rw [primitiveName_injective h]
    | named c =>
      obtain ⟨-, s, rfl⟩ := hb'
      exact absurd h (hmixed p s)
  | named c =>
    cases b' with
    | primitive q =>
      obtain ⟨-, s, rfl⟩ := hb
      exact absurd h.symm (hmixed q s)
    | named c' => rw [show c = c' from h]

/-- What is behind the base of a type: brackets, and a mark if the type may be null. -/
def suffix (rank : Nat) (marked : Bool) : List Char :=
  (List.replicate rank ['[', ']']).flatten ++ if marked then ['?'] else []

theorem toList_text (nullable : Bool) (t : TypeRef) : (t.text nullable).toList =
    (TypeRef.baseText t.base).toList ++ suffix t.rank (nullable && t.isReference) := by
  have hbrackets : (String.join (List.replicate t.rank "[]")).toList =
      (List.replicate t.rank ['[', ']']).flatten := by
    rw [String.toList_join, List.flatMap_def, List.map_replicate, String.toList_ofList]
  rw [TypeRef.text, String.toList_append, String.toList_append, hbrackets, List.append_assoc, suffix]
  split <;> rfl

theorem suffix_injective {rank rank' : Nat} {marked marked' : Bool} (h : suffix rank marked = suffix rank' marked') :
    rank = rank' := by
  have hlength := congrArg List.length h
  simp only [suffix, List.length_append, List.length_flatten, List.map_replicate, List.sum_replicate] at hlength
  cases marked <;> cases marked' <;> simp at hlength <;> omega

theorem text_injective {nullable : Bool} {t t' : TypeRef} (ht : t.base.Usual) (ht' : t'.base.Usual)
    (h : t.text nullable = t'.text nullable) : t = t' := by
  have hhead : ∀ rank marked, ∀ c ∈ (suffix rank marked).head?, isIdentifierChar c = false := by
    intro rank marked c hc
    cases rank with
    | zero =>
      cases marked with
      | false => cases hc
      | true => exact Option.some.inj hc ▸ rfl
    | succ rank =>
      rw [suffix, List.replicate_succ, List.flatten_cons] at hc
      exact Option.some.inj hc ▸ rfl
  have htext := congrArg String.toList h
  rw [toList_text, toList_text] at htext
  obtain ⟨hbase, hsuffix⟩ := append_inj_of_forall ht.plain ht'.plain (hhead _ _) (hhead _ _) htext
  obtain ⟨base, rank⟩ := t
  obtain ⟨base', rank'⟩ := t'
  rw [TypeRef.mk.injEq]
  exact ⟨baseText_injective ht ht' (String.toList_injective hbase), suffix_injective hsuffix⟩

theorem ne_blank_of_mem_text {nullable : Bool} {t : TypeRef} (ht : t.base.Usual) :
    ∀ c ∈ (t.text nullable).toList, c ≠ ' ' := by
  intro c hc
  rw [toList_text, List.mem_append] at hc
  rcases hc with hc | hc
  · exact ht.plain.ne_blank c hc
  · have hsuffix : c ∈ ['[', ']', '?'] := by
      rw [suffix, List.mem_append] at hc
      rcases hc with hc | hc
      · obtain ⟨l, hl, hc⟩ := List.mem_flatten.mp hc
        rw [List.eq_of_mem_replicate hl] at hc
        exact List.mem_append_left ['?'] hc
      · split at hc
        · exact List.mem_append_right ['[', ']'] hc
        · cases hc
    simp only [List.mem_cons, List.not_mem_nil, or_false] at hsuffix
    rcases hsuffix with rfl | rfl | rfl <;> decide

/-! ### Members -/

variable {options : OutputOptions} {indent : String} {ls ms : List String}

/-- Documentation has equally many lines, whatever it says. -/
theorem docLines_append_inj {text text' : String}
    (h : docLines options indent text ++ ls = docLines options indent text' ++ ms) : ls = ms := by
  refine (List.append_inj h ?_).2
  unfold docLines
  split <;> rfl

/-- The line that declares a member. -/
def propertyLine (options : OutputOptions) (indent : String) (m : Member) : String :=
  indent ++ "public " ++ m.type.text options.emitNullable ++ " " ++ m.name ++ " \x7b get; set; \x7d"

/-- The line of a member that says how numbers are handled, if there is one. -/
def handlingLines (options : OutputOptions) (indent : String) (m : Member) : List String :=
  if !options.numberHandling.isEmpty && m.type.isNumeric then
    [indent ++ "[JsonNumberHandling(" ++ NumberHandling.expression options.numberHandling ++ ")]"]
  else []

theorem memberLines_append (m : Member) : memberLines options indent m ++ ls =
    docLines options indent s!"Gets or sets the {xmlText m.key}." ++
      (indent ++ "[JsonPropertyName(" ++ stringLiteral m.key ++ ")]") ::
        (handlingLines options indent m ++ propertyLine options indent m :: "" :: ls) := by
  simp only [memberLines, List.append_assoc]
  rfl

theorem constructorLines_eq (name : String) : constructorLines options indent name =
    docLines options indent s!"Initializes a new instance of the <see cref=\"{name}\"/> class." ++
      [indent ++ ("public " ++ (name ++ "() \x7b \x7d"))] := by
  rw [constructorLines, ← String.append_assoc, ← String.append_assoc]
  rfl

/-- The type of a member is a word before a blank. -/
theorem propertyLine_injective {m m' : Member} (hm : m.type.base.Usual) (hm' : m'.type.base.Usual)
    (h : propertyLine options indent m = propertyLine options indent m') :
    m.type = m'.type ∧ m.name = m'.name := by
  rw [propertyLine, propertyLine] at h
  simp only [String.append_assoc, String.append_right_inj] at h
  obtain ⟨htype, hname⟩ := append_blank_inj (ne_blank_of_mem_text hm) (ne_blank_of_mem_text hm') h
  exact ⟨text_injective hm hm' htype, (String.append_left_inj _).mp hname⟩

theorem memberLines_append_inj {m m' : Member} (hm : m.type.base.Usual) (hm' : m'.type.base.Usual)
    (h : memberLines options indent m ++ ls = memberLines options indent m' ++ ms) : m = m' ∧ ls = ms := by
  rw [memberLines_append, memberLines_append] at h
  obtain ⟨hattribute, hrest⟩ := List.cons.inj (docLines_append_inj h)
  rw [String.append_left_inj, String.append_right_inj] at hattribute
  have hkey := stringLiteral_injective hattribute
  have hne (m : Member) : indent ++ "[JsonNumberHandling(" ++
      NumberHandling.expression options.numberHandling ++ ")]" ≠ propertyLine options indent m := by
    simp only [propertyLine, String.append_assoc]
    exact line_ne (by simp)
  have hline : propertyLine options indent m = propertyLine options indent m' ∧ ls = ms := by
    unfold handlingLines at hrest
    split_ifs at hrest
    · simpa using hrest
    · exact absurd (List.cons.inj hrest).1 (hne m')
    · exact absurd (List.cons.inj hrest).1.symm (hne m)
    · simpa using hrest
  obtain ⟨key, type, name⟩ := m
  obtain ⟨key', type', name'⟩ := m'
  obtain ⟨htype, hname⟩ := propertyLine_injective hm hm' hline.1
  exact ⟨by rw [Member.mk.injEq]; exact ⟨hkey, htype, hname⟩, hline.2⟩

/-- The lines of a member are not those of a constructor: after the documentation, one has an attribute. -/
theorem memberLines_append_ne {m : Member} {name : String} :
    memberLines options indent m ++ ls ≠ constructorLines options indent name ++ ms := by
  intro h
  rw [memberLines_append, constructorLines_eq, List.append_assoc] at h
  obtain ⟨hline, -⟩ := List.cons.inj (docLines_append_inj h)
  rw [String.append_assoc, String.append_assoc] at hline
  exact line_ne (by simp) hline

/-- **The lines of the members of a class determine them**, up to the class's constructor. -/
theorem members_eq {members members' : List Member} {name : String} (hm : ∀ m ∈ members, m.type.base.Usual)
    (hm' : ∀ m ∈ members', m.type.base.Usual)
    (h : members.flatMap (memberLines options indent) ++ (constructorLines options indent name ++ ls) =
      members'.flatMap (memberLines options indent) ++ (constructorLines options indent name ++ ms)) :
    members = members' ∧ ls = ms := by
  induction members generalizing members' with
  | nil =>
    cases members' with
    | nil => exact ⟨rfl, List.append_cancel_left h⟩
    | cons m' members' =>
      rw [List.flatMap_cons, List.append_assoc] at h
      exact absurd h.symm memberLines_append_ne
  | cons m members ih =>
    rw [List.flatMap_cons, List.append_assoc] at h
    cases members' with
    | nil => exact absurd h memberLines_append_ne
    | cons m' members' =>
      rw [List.flatMap_cons, List.append_assoc] at h
      rw [List.forall_mem_cons] at hm hm'
      obtain ⟨rfl, hrest⟩ := memberLines_append_inj hm.1 hm'.1 h
      obtain ⟨rfl, hls⟩ := ih hm.2 hm'.2 hrest
      exact ⟨rfl, hls⟩

end JsonShape.CSharp
