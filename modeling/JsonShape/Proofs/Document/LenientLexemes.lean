import JsonShape.Document.Lenient
import JsonShape.Proofs.Document.Json5
import JsonShape.Proofs.Document.Lexemes

/-!
# Reading the lexemes of a lenient document

The lenient reader and its grammar agree on blanks, strings, names and numbers: a part by the grammar is read off
a text that goes on with something else. What may follow a value or a key in a document goes on with neither a
number nor a name. That the blank characters do not is decided on a list of them, since they are scattered over
Unicode.
-/

namespace JsonShape.Lenient

open Grammar (Half HexDigit)
open Json5 (Chars CodeUnit Final Gap LineEnd NameChar NameTail Number Quoted Space)

variable {s rest : List Char}

/-! ### Blanks and comments -/

theorem isLineEnd_iff {c : Char} : isLineEnd c = true ↔ LineEnd c := by
  have hline : c.toNat = 0x2028 ↔ c = '\u2028' := Char.toNat_inj (d := '\u2028')
  have hparagraph : c.toNat = 0x2029 ↔ c = '\u2029' := Char.toNat_inj (d := '\u2029')
  simp [isLineEnd, LineEnd, hline, hparagraph, or_assoc]

theorem isLineEnd_eq_false {c : Char} (hc : ¬LineEnd c) : isLineEnd c = false :=
  Bool.eq_false_iff.mpr (mt isLineEnd_iff.mp hc)

theorem isSpace_iff {c : Char} : isSpace c = true ↔ Space c := by
  have hmark : c.toNat = 0xFEFF ↔ c = '\uFEFF' := Char.toNat_inj (d := '\uFEFF')
  simp [isSpace, Space, isLineEnd_iff, hmark, or_assoc]

/-- A character that neither is a blank nor starts a comment. -/
def Solid (c : Char) : Prop := isSpace c = false ∧ c ≠ '/'

instance (c : Char) : Decidable (Solid c) := inferInstanceAs (Decidable (_ ∧ _))

theorem afterBlank?_char {c : Char} (hc : c ≠ '/') :
    afterBlank? (c :: s) = if isSpace c then some s else none := by
  unfold afterBlank?
  split
  · next heq => exact absurd (List.cons.inj heq).1 hc
  · next heq => exact absurd (List.cons.inj heq).1 hc
  · next heq =>
    obtain ⟨rfl, rfl⟩ := List.cons.inj heq
    rfl
  · contradiction

theorem afterBlank?_solid {c : Char} (hc : Solid c) : afterBlank? (c :: s) = none := by
  simp [afterBlank?_char hc.2, hc.1]

theorem afterBlank?_space {c : Char} (hc : Space c) : afterBlank? (c :: s) = some s := by
  have hspace := isSpace_iff.mpr hc
  have hslash : c ≠ '/' := by
    rintro rfl
    revert hspace
    decide
  simp [afterBlank?_char hslash, hspace]

theorem afterBlock?_append {b : List Char} (hb : Json5.Block b) : afterBlock? (b ++ s) = some s := by
  induction hb with
  | close => rfl
  | @cons c b hc hb ih =>
    rw [List.cons_append]
    unfold afterBlock?
    split
    · contradiction
    · next heq =>
      obtain ⟨rfl, htail⟩ := List.cons.inj heq
      -- a comment has a character left as long as it is open
      obtain ⟨d, b, rfl⟩ : ∃ d b', b = d :: b' := by cases hb <;> exact ⟨_, _, rfl⟩
      obtain ⟨rfl, -⟩ := List.cons.inj htail
      exact absurd ⟨rfl, rfl⟩ hc
    · next heq =>
      obtain ⟨rfl, rfl⟩ := List.cons.inj heq
      exact ih

theorem dropWhile_line {l : List Char} (hl : ∀ x ∈ l, ¬LineEnd x) (hs : ∀ c ∈ s.head?, LineEnd c) :
    (l ++ s).dropWhile (!isLineEnd ·) = s :=
  Strict.dropWhile_append (fun x hx => by simp [isLineEnd_eq_false (hl x hx)])
    fun c hc => by simp [isLineEnd_iff.mpr (hs c hc)]

theorem skipBlanks_succ (h : afterBlank? s = some rest) (turns : Nat) :
    skipBlanks (turns + 1) s = skipBlanks turns rest := by
  rw [skipBlanks, h]

theorem skipBlanks_stop (h : afterBlank? s = none) (turns : Nat) : skipBlanks turns s = s := by
  cases turns with
  | zero => rfl
  | succ turns => rw [skipBlanks, h]

/-- To skip blanks and comments takes no more turns than they have characters. -/
theorem exists_turns {w : List Char} (hw : Gap w) (s : List Char) :
    ∃ used ≤ w.length, ∀ turns, skipBlanks (turns + used) (w ++ s) = skipBlanks turns s := by
  induction hw with
  | nil => exact ⟨0, le_rfl, fun _ => rfl⟩
  | space hc _ ih =>
    obtain ⟨used, hused, hskip⟩ := ih
    refine ⟨used + 1, Nat.succ_le_succ hused, fun turns => ?_⟩
    exact (skipBlanks_succ (afterBlank?_space hc) _).trans (hskip turns)
  | @block b w hb _ ih =>
    obtain ⟨used, hused, hskip⟩ := ih
    have hblock : afterBlank? ('/' :: '*' :: (b ++ w) ++ s) = some (w ++ s) := by
      rw [List.cons_append, List.cons_append, List.append_assoc]
      exact afterBlock?_append hb
    refine ⟨used + 1, ?_, fun turns => (skipBlanks_succ hblock _).trans (hskip turns)⟩
    simp only [List.length_cons, List.length_append]
    omega
  | @line l w c hl hc _ ih =>
    obtain ⟨used, hused, hskip⟩ := ih
    have hline : afterBlank? ('/' :: '/' :: (l ++ c :: w) ++ s) = some (c :: (w ++ s)) := by
      rw [List.cons_append, List.cons_append, List.append_assoc]
      exact congrArg some (dropWhile_line hl (by rintro _ ⟨⟩; exact hc))
    -- the line end that the comment leaves takes a turn of its own
    refine ⟨used + 1 + 1, ?_, fun turns => ?_⟩
    · simp only [List.length_cons, List.length_append]
      omega
    · exact (skipBlanks_succ hline _).trans ((skipBlanks_succ (afterBlank?_space (.inl hc)) _).trans (hskip turns))

theorem skipSpace_append {w : List Char} (hw : Gap w) (hs : afterBlank? s = none) : skipSpace (w ++ s) = s := by
  obtain ⟨used, hused, hskip⟩ := exists_turns hw s
  obtain ⟨turns, hturns⟩ : ∃ turns, (w ++ s).length = turns + used := Nat.exists_eq_add_of_le' (by simp; omega)
  rw [skipSpace, hturns, hskip, skipBlanks_stop hs]

theorem skipSpace_append_cons {w : List Char} (hw : Gap w) {c : Char} (hc : Solid c) (s : List Char) :
    skipSpace (w ++ c :: s) = c :: s := skipSpace_append hw (afterBlank?_solid hc)

/-- At the end of a text everything is skipped. -/
theorem skipSpace_final {w : List Char} (hw : Final w) : skipSpace w = [] := by
  cases hw with
  | gap hw =>
    have hskip := skipSpace_append (s := []) hw rfl
    rwa [List.append_nil] at hskip
  | @line w l hw hl =>
    obtain ⟨used, hused, hskip⟩ := exists_turns hw ('/' :: '/' :: l)
    obtain ⟨turns, hturns⟩ : ∃ turns, (w ++ '/' :: '/' :: l).length = turns + 1 + used := by
      simp only [List.length_append, List.length_cons]
      exact ⟨w.length - used + l.length + 1, by omega⟩
    have hline : afterBlank? ('/' :: '/' :: l) = some [] := by
      have hdrop := dropWhile_line (s := []) hl (fun _ hc => nomatch hc)
      rw [List.append_nil] at hdrop
      exact congrArg some hdrop
    rw [skipSpace, hturns, hskip, skipBlanks_succ hline, skipBlanks_stop rfl]

/-! ### Strings -/

theorem hexNumber?_two {h₁ h₂ : Char} {d₁ d₂ : Nat} (hd₁ : HexDigit h₁ d₁) (hd₂ : HexDigit h₂ d₂) :
    Text.hexNumber? [h₁, h₂] = some (d₁ * 16 + d₂) := by
  simp [Text.hexNumber?, Strict.hexValue?_eq_some_iff.mpr hd₁, Strict.hexValue?_eq_some_iff.mpr hd₂]

theorem escaped?_of_mem {e c : Char} (h : (e, c) ∈ Json5.escapes) : escaped? e = some c := by
  simp only [Json5.escapes, List.mem_cons, Prod.mk.injEq, List.not_mem_nil, or_false] at h
  rcases h with ⟨rfl, rfl⟩ | ⟨rfl, rfl⟩ | ⟨rfl, rfl⟩ | ⟨rfl, rfl⟩ | ⟨rfl, rfl⟩ | ⟨rfl, rfl⟩ <;> rfl

theorem escaped?_eq_none {c : Char} (h : ∀ e ∈ Json5.escapes, e.1 ≠ c) : escaped? c = none := by
  simp only [Json5.escapes, List.forall_mem_cons] at h
  obtain ⟨hb, hf, hn, hr, ht, hv, -⟩ := h
  unfold escaped?
  split <;> first | rfl | contradiction

/-- A character behind a backslash with which no longer escape starts is read as what it stands for. -/
theorem readChars_escape {quote e : Char} (hquote : '\\' ≠ quote)
    (he : e ≠ 'x' ∧ e ≠ 'u' ∧ e.isDigit = false ∧ ¬LineEnd e) :
    readChars quote ('\\' :: e :: s) = prepend ((escaped? e).getD e) (readChars quote s) := by
  obtain ⟨hx, hu, hdigit, hline⟩ := he
  have hzero : e ≠ '0' := by
    rintro rfl
    cases hdigit
  have hreturn : e ≠ '\r' := by
    rintro rfl
    exact hline (.inr (.inl rfl))
  rw [readChars.eq_def]
  simp [hquote, hx, hu, hzero, hdigit, hreturn, isLineEnd_eq_false hline]

theorem codeUnit_eq {u : List Char} {c : Char} (h : CodeUnit u c) :
    ∃ h₁ h₂ h₃ h₄ n, u = [h₁, h₂, h₃, h₄] ∧ Text.hexNumber? u = some n ∧ Text.unitChar n = c := by
  cases h with
  | mk hd₁ hd₂ hd₃ hd₄ hhalf =>
    have hhex := Strict.hexNumber?_eq_some_iff.mpr ⟨_, _, _, _, hd₁, hd₂, hd₃, hd₄, rfl⟩
    exact ⟨_, _, _, _, _, rfl, hhex, Strict.unitChar_of_not_surrogate hhalf⟩

theorem unitChar_two {h₁ h₂ : Char} {d₁ d₂ : Nat} (hd₁ : HexDigit h₁ d₁) (hd₂ : HexDigit h₂ d₂) :
    Text.unitChar (d₁ * 16 + d₂) = Char.ofNat (d₁ * 16 + d₂) := by
  have h₁ := Strict.hexDigit_lt hd₁
  have h₂ := Strict.hexDigit_lt hd₂
  refine Strict.unitChar_of_not_surrogate ?_
  unfold Grammar.High Grammar.Low
  omega

/-- A string is read up to its closing quote, by induction on what stands between the quotes. -/
theorem readChars_append {quote : Char} (hquote : quote = '"' ∨ quote = '\'') {body cs : List Char}
    (h : Chars quote body cs) (rest : List Char) : readChars quote (body ++ quote :: rest) = .ok (cs, rest) := by
  have hslash : '\\' ≠ quote := by rcases hquote with rfl | rfl <;> decide
  induction h with
  | nil =>
    rw [List.nil_append, readChars.eq_def]
    simp
  | plain hne hplain hline _ ih =>
    rw [List.cons_append, readChars.eq_def]
    simp [hne, hplain, hline.1, hline.2, ih, prepend, Except.map]
  | @escape e c body cs hc _ ih =>
    have he : e ≠ 'x' ∧ e ≠ 'u' ∧ e.isDigit = false ∧ ¬LineEnd e := by
      simp only [Json5.escapes, List.mem_cons, Prod.mk.injEq, List.not_mem_nil, or_false] at hc
      rw [← isLineEnd_iff]
      rcases hc with ⟨rfl, -⟩ | ⟨rfl, -⟩ | ⟨rfl, -⟩ | ⟨rfl, -⟩ | ⟨rfl, -⟩ | ⟨rfl, -⟩ <;> decide
    rw [List.cons_append, List.cons_append, readChars_escape hslash he, escaped?_of_mem hc, ih]
    rfl
  | verbatim hc _ ih =>
    obtain ⟨hx, hu, hdigit, hline, hescape⟩ := hc
    rw [List.cons_append, List.cons_append, readChars_escape hslash ⟨hx, hu, hdigit, hline⟩,
      escaped?_eq_none hescape, ih]
    rfl
  | @null body cs hbody _ ih =>
    have hdigit : startsWithDigit (body ++ quote :: rest) = false := by
      cases body with
      | nil => rcases hquote with rfl | rfl <;> rfl
      | cons c body => exact hbody c rfl
    rw [List.cons_append, List.cons_append, readChars.eq_def]
    simp [hslash, hdigit, ih, prepend, Except.map]
  | hexadecimal hd₁ hd₂ _ ih =>
    simp only [List.cons_append]
    rw [readChars.eq_def]
    simp [hslash, hexNumber?_two hd₁ hd₂, unitChar_two hd₁ hd₂, ih, prepend, Except.map]
  | unicode hu _ ih =>
    obtain ⟨h₁, h₂, h₃, h₄, n, rfl, hhex, hc⟩ := codeUnit_eq hu
    simp only [List.cons_append, List.nil_append]
    rw [readChars.eq_def]
    simp [hslash, hhex, hc, ih, prepend, Except.map]
  | @continued c body cs hc hbody ih =>
    obtain ⟨d, after, hafter⟩ : ∃ d after, body ++ quote :: rest = d :: after :=
      List.exists_cons_of_ne_nil (by simp)
    have hd : d ≠ '\n' := by
      cases hbody with
      | nil => rcases hquote with rfl | rfl <;> (cases hafter; decide)
      | plain _ _ hline => cases hafter; exact hline.1
      | escape | verbatim | null | hexadecimal | unicode | continued | continuedPair => cases hafter; decide
    rw [List.cons_append, List.cons_append, readChars.eq_def]
    rw [hafter] at ih ⊢
    rcases hc with rfl | rfl | rfl | rfl <;> simp [hslash, hd, ih, isLineEnd]
  | continuedPair _ ih =>
    simp only [List.cons_append]
    rw [readChars.eq_def]
    simp [hslash, ih]

theorem string_append {t : List Char} {text : String} (h : Quoted t text) (rest : List Char) :
    ∃ quote u, (quote = '"' ∨ quote = '\'') ∧ t = quote :: u ∧ string quote (u ++ rest) = .ok (text, rest) := by
  cases h with
  | @mk quote s _ hquote h =>
    refine ⟨quote, s ++ [quote], hquote, rfl, ?_⟩
    rw [List.append_assoc, string, List.singleton_append, readChars_append hquote h]
    simp [Except.map]

/-! ### What blanks do not continue -/

/-- The code points of the blank characters. -/
def spaces : List Nat :=
  [0x09, 0x0A, 0x0B, 0x0C, 0x0D, 0x20, 0xA0, 0x1680, 0x2028, 0x2029, 0x202F, 0x205F, 0x3000, 0xFEFF] ++
    List.range' 0x2000 11

theorem mem_spaces {c : Char} (hc : Space c) : c.toNat ∈ spaces := by
  rcases hc with (rfl | rfl | rfl | rfl) | rfl | rfl | rfl | rfl | hc
  all_goals try decide
  simp only [Text.isSpaceSeparator, Bool.or_eq_true, beq_iff_eq, Bool.and_eq_true, decide_eq_true_eq] at hc
  simp only [spaces, List.mem_append, List.mem_cons, List.mem_range'_1]
  omega

/-- What is so of each blank character of the list is so of all. -/
theorem forall_space {P : Char → Prop} (h : ∀ n ∈ spaces, P (Char.ofNat n)) {c : Char} (hc : Space c) : P c := by
  have hn := h c.toNat (mem_spaces hc)
  rwa [Char.ofNat_toNat] at hn

/-- No blank goes on with a name, and so none starts one. -/
theorem continuesName_space {c : Char} (hc : Space c) : Text.continuesName c = false :=
  forall_space (P := fun c => Text.continuesName c = false) (by decide +kernel) hc

theorem startsName_of_not_continues {c : Char} (h : Text.continuesName c = false) : Text.startsName c = false := by
  simp only [Text.continuesName, Bool.or_eq_false_iff] at h
  exact h.1.1

/-- What may follow a value in a document: its end, a blank or comment, a comma or a closing bracket. -/
def Stops (rest : List Char) : Prop := ∀ c ∈ rest.head?, Space c ∨ c = '/' ∨ c = ',' ∨ c = ']' ∨ c = '}'

theorem Stops.forall {P : Char → Prop} (hspaces : ∀ n ∈ spaces, P (Char.ofNat n))
    (hothers : P '/' ∧ P ',' ∧ P ']' ∧ P '}') (h : Stops rest) : ∀ c ∈ rest.head?, P c := by
  obtain ⟨hslash, hcomma, hbracket, hbrace⟩ := hothers
  intro c hc
  rcases h c hc with hspace | rfl | rfl | rfl | rfl
  · exact forall_space hspaces hspace
  all_goals assumption

theorem Stops.ends_number (h : Stops rest) :
    ∀ c ∈ rest.head?, c.isDigit = false ∧ c ≠ '.' ∧ c ≠ 'e' ∧ c ≠ 'E' :=
  Stops.forall (by decide) (by decide) h

theorem Stops.ends_hexadecimal (h : Stops rest) : ∀ c ∈ rest.head?, Text.hexValue? c = none :=
  Stops.forall (by decide) (by decide) h

theorem gap_head {w : List Char} (hw : Gap w) : ∀ c ∈ w.head?, Space c ∨ c = '/' := by
  cases hw with
  | nil => exact fun _ hc => nomatch hc
  | space hc =>
    rintro _ ⟨⟩
    exact .inl hc
  | block | line =>
    rintro _ ⟨⟩
    exact .inr rfl

/-- What starts with blanks and comments starts with one of them, or with what is behind them. -/
theorem stops_append {w : List Char} (hw : Gap w) (hs : Stops s) : Stops (w ++ s) := by
  cases w with
  | nil => exact hs
  | cons x w => exact fun c hc => (gap_head hw c hc).imp_right .inl

theorem stops_final {w : List Char} (hw : Final w) : Stops w := by
  cases hw with
  | gap hw =>
    have hstops := stops_append (s := []) hw fun _ hc => nomatch hc
    rwa [List.append_nil] at hstops
  | line hw =>
    refine stops_append hw ?_
    rintro _ ⟨⟩
    exact .inr (.inl rfl)

/-! ### Names -/

section

variable {test : Char → Bool}

theorem nameChar?_eq_none {c : Char} (hslash : c ≠ '\\') (hc : test c = false) :
    nameChar? test (c :: s) = none := by
  unfold nameChar?
  split
  · next heq => exact absurd (List.cons.inj heq).1 hslash
  · next heq =>
    obtain ⟨rfl, rfl⟩ := List.cons.inj heq
    simp [hc]
  · rfl

/-- With a blank neither a name starts nor goes on. -/
theorem nameChar?_space {c : Char} (hc : Space c) (s : List Char) :
    nameChar? Text.startsName (c :: s) = none ∧ nameChar? Text.continuesName (c :: s) = none := by
  have hslash : c ≠ '\\' := forall_space (P := (· ≠ '\\')) (by decide) hc
  have hcontinues := continuesName_space hc
  exact ⟨nameChar?_eq_none hslash (startsName_of_not_continues hcontinues), nameChar?_eq_none hslash hcontinues⟩

theorem nameChar?_append (htest : test '\\' = false) {t : List Char} {c : Char} (h : NameChar test t c)
    (s : List Char) : nameChar? test (t ++ s) = some (c, s) := by
  cases h with
  | plain hc =>
    unfold nameChar?
    split
    · next heq =>
      obtain ⟨rfl, -⟩ := List.cons.inj heq
      rw [htest] at hc
      cases hc
    · next heq =>
      obtain ⟨rfl, rfl⟩ := List.cons.inj heq
      simp [hc]
    · contradiction
  | unicode hu _ =>
    obtain ⟨h₁, h₂, h₃, h₄, n, rfl, hhex, hn⟩ := codeUnit_eq hu
    simp [nameChar?, hhex, hn]

end

theorem nameTail_append {cs : List Char} (h : NameTail s cs) (hrest : nameChar? Text.continuesName rest = none)
    {turns : Nat} (hturns : s.length ≤ turns) : nameTail turns (s ++ rest) = (cs, rest) := by
  induction h generalizing turns with
  | nil =>
    cases turns with
    | zero => rfl
    | succ turns => rw [List.nil_append, nameTail, hrest]
  | @cons t s cs c hc _ ih =>
    have hpos : 0 < t.length := by cases hc <;> simp
    obtain ⟨turns, rfl⟩ : ∃ k, turns = k + 1 := Nat.exists_eq_add_of_le' (by simp at hturns; omega)
    rw [List.length_append] at hturns
    rw [List.append_assoc, nameTail, nameChar?_append (by decide) hc]
    have htail : nameTail turns (s ++ rest) = (cs, rest) := ih (by omega)
    simp only [htail]

/-- A name is read to its end, if nothing follows that would go on with it. -/
theorem name_append {t cs : List Char} {c : Char} (hc : NameChar Text.startsName t c) (h : NameTail s cs)
    (hrest : nameChar? Text.continuesName rest = none) :
    name (t ++ (s ++ rest)) = .ok (String.ofList (c :: cs), rest) := by
  rw [name, nameChar?_append (by decide) hc]
  have htail : nameTail (s ++ rest).length (s ++ rest) = (cs, rest) := nameTail_append h hrest (by simp)
  simp only [htail]

/-! ### Numbers -/

section

variable {whole digits t e : List Char} {fraction? : Option (List Char)} {x : Option Int} {negative : Bool}

theorem whole?_append (h : Grammar.Whole whole) (hrest : ∀ c ∈ rest.head?, c.isDigit = false) :
    whole? (whole ++ rest) = some (whole, rest) := by
  rcases h with rfl | ⟨hdigits, hzero⟩
  · have hnone : startsWithDigit rest = false := by
      cases rest with
      | nil => rfl
      | cons c rest => exact hrest c rfl
    simp [whole?, hnone]
  · have htake := Strict.takeWhile_append hdigits.2 hrest
    have hdrop := Strict.dropWhile_append hdigits.2 hrest
    obtain ⟨c, ds, rfl⟩ := List.exists_cons_of_ne_nil hdigits.1
    have hc : c.isDigit = true := hdigits.2 c (List.mem_cons_self ..)
    have hne : c ≠ '0' := fun h => hzero (congrArg some h)
    simp only [List.cons_append, List.takeWhile_cons, List.dropWhile_cons, hc, if_true, List.cons.injEq,
      true_and] at htake hdrop
    simp only [List.cons_append, whole?, if_neg hne, hc, if_true, htake, hdrop]

theorem fraction_point (hdigits : ∀ c ∈ digits, c.isDigit = true) (hrest : ∀ c ∈ rest.head?, c.isDigit = false) :
    fraction ('.' :: (digits ++ rest)) = (some digits, rest) := by
  rw [fraction, Strict.takeWhile_append hdigits hrest, Strict.dropWhile_append hdigits hrest]

theorem fraction_none (hrest : ∀ c ∈ rest.head?, c ≠ '.') : fraction rest = (none, rest) := by
  unfold fraction
  split
  · exact absurd rfl (hrest '.' rfl)
  · rfl

/-- An exponent of the grammar is read as its sign and its digits, of which there are some. -/
theorem exponent_append (h : Grammar.Exponent e x)
    (hrest : ∀ c ∈ rest.head?, c.isDigit = false ∧ c ≠ 'e' ∧ c ≠ 'E') :
    ∃ parts, exponent (e ++ rest) = (parts, rest) ∧ parts.map (fun p => Scan.signed p.1 p.2) = x ∧
      ∀ p ∈ parts, p.2.isEmpty = false := by
  have hdigit : ∀ c ∈ rest.head?, c.isDigit = false := fun c hc => (hrest c hc).1
  cases h with
  | absent =>
    refine ⟨none, ?_, rfl, fun _ hp => nomatch hp⟩
    rw [List.nil_append]
    unfold exponent
    split
    · rfl
    · next c rest =>
      have hc := (hrest c rfl).2
      rw [if_neg (by simpa using hc)]
  | @marked c t digits negative hc hsign hdigits =>
    have htake := Strict.takeWhile_append hdigits.2 hdigit
    have hdrop := Strict.dropWhile_append hdigits.2 hdigit
    have hsigned : Scan.sign (t ++ (digits ++ rest)) = (negative, digits ++ rest) := by
      obtain ⟨d, ds, rfl⟩ := List.exists_cons_of_ne_nil hdigits.1
      have hd : d.isDigit = true := hdigits.2 d (List.mem_cons_self ..)
      refine Strict.sign_append hsign fun y hy => ?_
      obtain rfl : d = y := Option.some.inj hy
      constructor <;> rintro rfl <;> cases hd
    refine ⟨some (negative, digits), ?_, ?_, ?_⟩
    · rw [List.cons_append, List.append_assoc, exponent, if_pos (by simpa using hc), hsigned]
      simp only [htake, hdrop]
    · rw [Option.map_some, Strict.signed_eq]
    · rintro _ ⟨⟩
      exact List.isEmpty_eq_false_iff.mpr hdigits.1

theorem whole_isEmpty (h : Grammar.Whole whole) : whole.isEmpty = false := by
  obtain ⟨c, ds, rfl, -⟩ := Strict.whole_head h
  rfl

/-- Neither a digit nor a point starts an exponent. -/
theorem before_exponent (he : Grammar.Exponent e x) (hrest : Stops rest) :
    ∀ c ∈ (e ++ rest).head?, c.isDigit = false ∧ c ≠ '.' := by
  have hends := hrest.ends_number
  cases he with
  | absent => exact fun c hc => ⟨(hends c hc).1, (hends c hc).2.1⟩
  | marked hc =>
    rintro _ ⟨⟩
    rcases hc with rfl | rfl <;> decide

/-- Nothing that may follow a value starts a name. -/
theorem Stops.nameChar? (hrest : Stops rest) : Lenient.nameChar? Text.startsName rest = none := by
  cases rest with
  | nil => rfl
  | cons c rest =>
    rcases hrest c rfl with hc | rfl | rfl | rfl | rfl
    · exact (nameChar?_space hc rest).1
    all_goals exact nameChar?_eq_none (by decide) (by decide)

/-- The parts of a decimal number, one read behind the other, are those of the number. -/
theorem decimal?_append (hwhole : whole? t = some (whole, s))
    (hfraction : Lenient.fraction s = (fraction?, e ++ rest)) (he : Grammar.Exponent e x) (hrest : Stops rest)
    (negative : Bool) :
    ∃ parts, decimal? negative t = some (decimalValue? negative whole fraction? parts, rest) ∧
      parts.map (fun p => Scan.signed p.1 p.2) = x ∧ ∀ p ∈ parts, p.2.isEmpty = false := by
  have hends := hrest.ends_number
  obtain ⟨parts, hparts, hvalue⟩ := exponent_append he fun c hc => ⟨(hends c hc).1, (hends c hc).2.2⟩
  refine ⟨parts, ?_, hvalue⟩
  simp only [decimal?, hwhole, hfraction, hparts, hrest.nameChar?]

theorem decimal?_float (hwhole : whole? t = some (whole, s))
    (hfraction : Lenient.fraction s = (fraction?, e ++ rest)) (he : Grammar.Exponent e x) (hrest : Stops rest)
    (hpart : fraction? ≠ none ∨ x ≠ none) (hdigit : whole.isEmpty = false ∨ (fraction?.getD []).isEmpty = false)
    (negative : Bool) :
    decimal? negative t =
      some (some (.float (Grammar.decimal negative whole (fraction?.getD []) (x.getD 0))), rest) := by
  obtain ⟨parts, hread, rfl, hdigits⟩ := decimal?_append hwhole hfraction he hrest negative
  have hsome : (whole.isEmpty && (fraction?.getD []).isEmpty) = false := Bool.and_eq_false_iff.mpr hdigit
  rw [hread, ← Strict.ofParts_eq]
  cases parts with
  | none =>
    cases fraction? with
    | none => simp at hpart
    | some digits =>
      rw [Option.getD_some] at hsome ⊢
      simp [decimalValue?, hsome]
  | some p => cases fraction? <;> simp_all [decimalValue?]

theorem hexNumber_eq {n m : Nat} (h : Json5.HexNumber n digits m) :
    digits.foldlM (fun n c => (n * 16 + ·) <$> Text.hexValue? c) n = some m ∧
      ∀ c ∈ digits, (Text.hexValue? c).isSome = true := by
  induction h with
  | nil => exact ⟨rfl, fun _ hc => nomatch hc⟩
  | cons hd _ ih =>
    have hvalue := Strict.hexValue?_eq_some_iff.mpr hd
    refine ⟨?_, List.forall_mem_cons.mpr ⟨by simp [hvalue], ih.2⟩⟩
    rw [List.foldlM_cons, hvalue]
    exact ih.1

/-- A hexadecimal number is read as such, since a decimal number does not go on with its letter. -/
theorem hexadecimal_append {c : Char} {n : Nat} (hc : c = 'x' ∨ c = 'X') (hdigits : digits ≠ [])
    (h : Json5.HexNumber 0 digits n) (hrest : Stops rest) (negative : Bool) :
    decimal? negative ('0' :: c :: (digits ++ rest)) = none ∧
      hexadecimal? negative ('0' :: c :: (digits ++ rest)) =
        some (.int (Grammar.signed negative n), rest) := by
  obtain ⟨hnumber, hall⟩ := hexNumber_eq h
  have hends : ∀ c ∈ rest.head?, (Text.hexValue? c).isSome = false := fun c hc =>
    Option.isSome_eq_false_iff.mpr (Option.isNone_iff_eq_none.mpr (hrest.ends_hexadecimal c hc))
  have htake := Strict.takeWhile_append hall hends
  refine ⟨?_, ?_⟩
  · rcases hc with rfl | rfl <;>
      simp [decimal?, whole?, startsWithDigit, fraction, exponent, Lenient.nameChar?, Text.startsName]
  · have hvalue : Text.hexNumber? digits = some n := hnumber
    have hx : (c = 'x' || c = 'X') = true := by simpa using hc
    obtain ⟨d, ds, rfl⟩ := List.exists_cons_of_ne_nil hdigits
    simp only [hexadecimal?, hx, if_true, htake, hvalue, List.drop_left]
    rfl

/-- A number is read behind its sign: as a decimal one, or as one of the others where that fails. -/
theorem unsigned_append {v : Value} {d : Nat} (h : Number negative s v d) (hd : d ≤ maxIntegerDigits)
    (hrest : Stops rest) :
    decimal? negative (s ++ rest) = some (some v, rest) ∨ decimal? negative (s ++ rest) = none ∧
      (hexadecimal? negative (s ++ rest)).or (constant? negative (s ++ rest)) = some (v, rest) := by
  have hends := hrest.ends_number
  cases h with
  | @int whole hwhole =>
    obtain ⟨parts, hread, hnone, -⟩ := decimal?_append
      (whole?_append hwhole fun c hc => (hends c hc).1)
      (fraction_none fun c hc => (hends c hc).2.1) .absent hrest negative
    obtain rfl := Option.map_eq_none_iff.mp hnone
    refine .inl ?_
    rw [hread, decimalValue?, if_neg (Nat.not_lt.mpr hd), Strict.signed_eq]
  | point hwhole hdigits he =>
    have hexponent := before_exponent he hrest
    have hfraction := fraction_point hdigits fun c hc => (hexponent c hc).1
    refine .inl ?_
    simp only [List.append_assoc, List.cons_append]
    exact decimal?_float (whole?_append hwhole (by rintro _ ⟨⟩; rfl)) hfraction he hrest (.inl nofun)
      (.inl (whole_isEmpty hwhole)) negative
  | @pointFirst digits e _ hdigits he =>
    have hexponent := before_exponent he hrest
    have hfraction := fraction_point hdigits.2 fun c hc => (hexponent c hc).1
    refine .inl ?_
    have hpoint : whole? ('.' :: (digits ++ (e ++ rest))) = some ([], '.' :: (digits ++ (e ++ rest))) := rfl
    simp only [List.append_assoc, List.cons_append]
    exact decimal?_float hpoint hfraction he hrest (.inl nofun)
      (.inr (List.isEmpty_eq_false_iff.mpr hdigits.1)) negative
  | exponent hwhole he =>
    have hexponent := before_exponent he hrest
    refine .inl ?_
    rw [List.append_assoc]
    exact decimal?_float (whole?_append hwhole fun c hc => (hexponent c hc).1)
      (fraction_none fun c hc => (hexponent c hc).2) he hrest (.inr nofun) (.inl (whole_isEmpty hwhole)) negative
  | hexadecimal hx hdigits h =>
    obtain ⟨hnone, hread⟩ := hexadecimal_append hx hdigits h hrest negative
    exact .inr ⟨hnone, by simp [hread]⟩
  | infinity => exact .inr ⟨rfl, rfl⟩
  | nan => exact .inr ⟨rfl, rfl⟩

end

end JsonShape.Lenient
