import JsonShape.Proofs.Document.Nesting

/-!
# Escaped code units of a text

Which code units a text writes as four-digit escapes in its strings, be it a document or not. A string without
an escaped half of a surrogate pair stands for its code units one by one, since no character that is written as
itself is half of a pair.
-/

namespace JsonShape.Grammar

/-- The code unit that four hexadecimal digits at the front of a text write. -/
def unitAhead? : List Char → Option Nat
  | h₁ :: h₂ :: h₃ :: h₄ :: _ => Text.hexNumber? [h₁, h₂, h₃, h₄]
  | _ => none

/-- The code units that are escaped in the strings of a text; the flag says whether the text starts inside a
string. -/
def escapedUnits : (quoted : Bool) → List Char → List Nat
  | _, [] => []
  | false, c :: s => escapedUnits (c == '"') s
  | true, c :: s =>
    if c = '"' then escapedUnits false s
    else if c = '\\' then
      match s with
      | [] => []
      | e :: s => (if e = 'u' then (unitAhead? s).toList else []) ++ escapedUnits true s
    else escapedUnits true s

/-- Half of a surrogate pair. -/
def Half (u : Nat) : Prop := High u ∨ Low u

/-- No string of the text has an escape for half of a surrogate pair. -/
def WholeUnits (s : List Char) : Prop := ∀ u ∈ escapedUnits false s, ¬Half u

variable {s t : List Char}

theorem escapedUnits_plain {c : Char} (hc : c ≠ '"') : escapedUnits false (c :: s) = escapedUnits false s := by
  rw [escapedUnits, beq_false_of_ne hc]

theorem escapedUnits_quoted {c : Char} (hc : c ≠ '"' ∧ c ≠ '\\') :
    escapedUnits true (c :: s) = escapedUnits true s := by
  rw [escapedUnits.eq_def]
  simp only [if_neg hc.1, if_neg hc.2]

theorem escapedUnits_escape {e : Char} (he : e ≠ 'u') :
    escapedUnits true ('\\' :: e :: s) = escapedUnits true s := by
  rw [escapedUnits.eq_def]
  simp [he]

/-- What is escaped in a string comes from the string alone, and of its code units all others are those of
characters. -/
theorem exists_escapedUnits {us : List Nat} (h : Units t us) :
    ∃ es, (∀ s, escapedUnits true (t ++ '"' :: s) = es ++ escapedUnits false s) ∧
      ∀ u ∈ us, u ∈ es ∨ ∃ c : Char, u = c.toNat := by
  induction h with
  | nil =>
    refine ⟨[], fun s => ?_, fun _ hu => nomatch hu⟩
    rw [List.nil_append, escapedUnits.eq_def]
    rfl
  | @plain c t us hquote hslash _ _ ih =>
    obtain ⟨es, hes, hus⟩ := ih
    refine ⟨es, fun s => ?_, List.forall_mem_cons.mpr ⟨.inr ⟨c, rfl⟩, hus⟩⟩
    rw [List.cons_append, escapedUnits_quoted ⟨hquote, hslash⟩, hes]
  | @escape e c t us hc _ ih =>
    obtain ⟨es, hes, hus⟩ := ih
    have he : e ≠ 'u' := by
      rintro rfl
      revert hc
      simp [escapes]
    refine ⟨es, fun s => ?_, List.forall_mem_cons.mpr ⟨.inr ⟨c, rfl⟩, hus⟩⟩
    rw [List.cons_append, List.cons_append, escapedUnits_escape he, hes]
  | @unicode h₁ h₂ h₃ h₄ d₁ d₂ d₃ d₄ t us hd₁ hd₂ hd₃ hd₄ _ ih =>
    obtain ⟨es, hes, hus⟩ := ih
    have hhex := Strict.hexNumber?_eq_some_iff.mpr ⟨_, _, _, _, hd₁, hd₂, hd₃, hd₄, rfl⟩
    refine ⟨_ :: es, fun s => ?_, List.forall_mem_cons.mpr ⟨.inl (List.mem_cons_self ..), ?_⟩⟩
    · simp only [List.cons_append]
      rw [escapedUnits.eq_def]
      simp only [Char.reduceEq, if_false, if_true, unitAhead?, hhex, Option.toList_some]
      rw [escapedUnits_quoted hd₁.ne, escapedUnits_quoted hd₂.ne, escapedUnits_quoted hd₃.ne,
        escapedUnits_quoted hd₄.ne, hes]
      rfl
    · exact fun u hu => (hus u hu).imp (List.mem_cons_of_mem _) id

/-! ### Texts of values -/

/-- What is escaped in a text that goes on with another is what is escaped in either. -/
def Separate (t : List Char) : Prop := ∀ s, escapedUnits false (t ++ s) = escapedUnits false t ++ escapedUnits false s

theorem escapedUnits_of_plain (h : ∀ c ∈ t, Plain c) : escapedUnits false (t ++ s) = escapedUnits false s := by
  induction t with
  | nil => rfl
  | cons c t ih =>
    obtain ⟨hc, ht⟩ := List.forall_mem_cons.mp h
    rw [List.cons_append, escapedUnits_plain hc.1, ih ht]

theorem separate_of_plain (h : ∀ c ∈ t, Plain c) : Separate t := by
  intro s
  have ht := escapedUnits_of_plain (s := []) h
  rw [List.append_nil] at ht
  rw [escapedUnits_of_plain h, ht]
  rfl

theorem separate_singleton {c : Char} (hc : c ≠ '"') : Separate [c] := by
  intro s
  rw [List.singleton_append, escapedUnits_plain hc, escapedUnits_plain hc]
  rfl

theorem Separate.append {u : List Char} (ht : Separate t) (hu : Separate u) : Separate (t ++ u) := by
  intro s
  rw [List.append_assoc, ht, hu, ht, List.append_assoc]

theorem Quoted.separate {text : String} (h : Quoted t text) : Separate t := by
  cases h with
  | @mk body us _ hs _ =>
    intro s
    obtain ⟨es, hes, -⟩ := exists_escapedUnits hs
    have hquote (s : List Char) : escapedUnits false ('"' :: (body ++ '"' :: s)) = es ++ escapedUnits false s := by
      rw [escapedUnits]
      exact hes s
    have h := hquote []
    simp only [List.cons_append, List.append_assoc, List.nil_append]
    rw [hquote, h]
    simp [escapedUnits]

theorem compositional_separate : Compositional fun t _ => Separate t where
  plain := separate_of_plain
  quoted h := h.separate
  append ht hu := ht.append hu
  bracketed {t _ a b} ha hb ht := by
    have ha : Separate [a] := separate_singleton (by rcases ha with rfl | rfl <;> decide)
    have hb : Separate [b] := separate_singleton (by rcases hb with rfl | rfl <;> decide)
    exact ha.append (ht.append hb)

/-- Of two texts put together, neither has an escape for half of a pair if the whole has none. -/
theorem Separate.wholeUnits_append (ht : Separate t) : WholeUnits (t ++ s) ↔ WholeUnits t ∧ WholeUnits s := by
  rw [WholeUnits, ht s]
  exact List.forall_mem_append

theorem wholeUnits_of_plain_append (ht : ∀ c ∈ t, Plain c) : WholeUnits (t ++ s) ↔ WholeUnits s := by
  rw [WholeUnits, escapedUnits_of_plain ht]
  rfl

/-- What stands behind a bracket and blanks has no escape for half of a pair if the whole has none. -/
theorem Separate.wholeUnits_of_enclosed {a : Char} {w : List Char} (ht : Separate t) (ha : a ≠ '"')
    (hw : Blanks w) (h : WholeUnits (a :: (w ++ (t ++ s)))) : WholeUnits t := by
  rw [WholeUnits, escapedUnits_plain ha] at h
  exact (ht.wholeUnits_append.mp ((wholeUnits_of_plain_append hw.plain).mp h)).1

/-- If a list has no escape for half of a pair, none of its parts has one. -/
theorem Listed.wholeUnits {α : Type} {Part : List Char → α → Nat → Nat → Prop}
    (hpart : ∀ t a d n, Part t a d n → Separate t) {as : List α} {d n : Nat} (h : Listed Part t as d n)
    (ht : WholeUnits t) : Listed (fun t a d n => Part t a d n ∧ WholeUnits t) t as d n := by
  induction h with
  | single h => exact .single ⟨h, ht⟩
  | @cons s w w' t a as d n e m h hw hw' _ ih =>
    obtain ⟨hs, hrest⟩ := (hpart s a d n h).wholeUnits_append.mp ht
    have hcomma : ∀ c ∈ [','], Plain c := List.forall_mem_singleton.mpr (by decide)
    rw [wholeUnits_of_plain_append hw.plain, ← List.singleton_append, wholeUnits_of_plain_append hcomma,
      wholeUnits_of_plain_append hw'.plain] at hrest
    exact .cons ⟨h, hs⟩ hw hw' (ih hrest)

/-- If a list behind a bracket and blanks stands in a text without an escape for half of a pair, none of its parts
has one. -/
theorem Listed.wholeUnits_of_enclosed {α : Type} {Part : List Char → α → Nat → Nat → Prop}
    (hpart : ∀ t a d n, Part t a d n → Separate t) {as : List α} {d n : Nat} (h : Listed Part t as d n) {a : Char}
    {w : List Char} (ha : a ≠ '"') (hw : Blanks w) (ht : WholeUnits (a :: (w ++ (t ++ s)))) :
    Listed (fun t a d n => Part t a d n ∧ WholeUnits t) t as d n :=
  have hseparate : Separate t := compositional_separate.listed (fun t a d n h _ => hpart t a d n h) h le_rfl
  h.wholeUnits hpart (hseparate.wholeUnits_of_enclosed ha hw ht)

theorem Derives.separate {v : Value} {d n : Nat} (h : Derives t v d n) : Separate t :=
  compositional_separate.derives h

theorem Member.separate {m : String × Value} {d n : Nat} (h : Member t m d n) : Separate t :=
  compositional_separate.member h

/-- Without escapes for halves of pairs, a string has no halves of pairs. -/
theorem Units.not_half {us : List Nat} (h : Units t us) (ht : WholeUnits ('"' :: (t ++ ['"']))) :
    ∀ u ∈ us, ¬Half u := by
  obtain ⟨es, hes, hus⟩ := exists_escapedUnits h
  have hall : escapedUnits false ('"' :: (t ++ ['"'])) = es := by
    rw [escapedUnits]
    exact (hes []).trans (List.append_nil _)
  rw [WholeUnits, hall] at ht
  intro u hu
  rcases hus u hu with he | ⟨c, rfl⟩
  · exact ht u he
  · obtain ⟨hhigh, hlow⟩ := Strict.not_surrogate_toNat c
    exact fun h => h.elim hhigh hlow

/-- Code units of which none is half of a pair stand for a character each. -/
theorem Joined.eq_map {us : List Nat} {cs : List Char} (h : Joined us cs) (hus : ∀ u ∈ us, ¬Half u) :
    cs = us.map Char.ofNat := by
  induction h with
  | nil => rfl
  | char c _ ih =>
    obtain ⟨-, hus⟩ := List.forall_mem_cons.mp hus
    rw [List.map_cons, Char.ofNat_toNat, ← ih hus]
  | pair hhigh => exact absurd (.inl hhigh) (List.forall_mem_cons.mp hus).1
  | alone hu => exact absurd hu (List.forall_mem_cons.mp hus).1

end JsonShape.Grammar
