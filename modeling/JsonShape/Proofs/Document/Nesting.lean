import JsonShape.Proofs.Document.Recognition

/-!
# The nesting of a text

How deep the brackets of a text nest, be it a document or not, and that the strict reader gives up only on
texts that nest deeper than it goes down. The brackets that it is inside of are open in the text, and what it
has read in front of them is by the grammar, so that all its brackets are closed again.

What is said of all texts of values is said once: a property that is `Compositional` holds of them, by induction on
how deep they nest. How deep brackets nest is one such property.
-/

namespace JsonShape.Grammar

/-- The greatest number of brackets that are open at once, where `n` are open in front of the text. Brackets
in strings do not count; the flag says whether the text starts inside a string. A closing bracket to which no
opening one belongs counts for nothing. -/
def deepest : (quoted : Bool) → (n : Nat) → List Char → Nat
  | _, n, [] => n
  | true, n, c :: s =>
    if c = '"' then deepest false n s
    else if c = '\\' then
      match s with
      | [] => n
      | _ :: s => deepest true n s
    else deepest true n s
  | false, n, c :: s =>
    if c = '"' then deepest true n s
    else if c = '[' ∨ c = '{' then deepest false (n + 1) s
    else if c = ']' ∨ c = '}' then max n (deepest false (n - 1) s)
    else deepest false n s

/-- How deep the brackets of a text nest, whether they match or not. -/
def nesting (s : List Char) : Nat := deepest false 0 s

variable {n : Nat} {s t : List Char}

theorem le_deepest (quoted : Bool) (n : Nat) (s : List Char) : n ≤ deepest quoted n s := by
  fun_induction deepest quoted n s <;> omega

/-- A character that neither is a bracket nor starts a string. -/
def Plain (c : Char) : Prop := c ≠ '"' ∧ c ≠ '[' ∧ c ≠ '{' ∧ c ≠ ']' ∧ c ≠ '}'

instance (c : Char) : Decidable (Plain c) := inferInstanceAs (Decidable (_ ∧ _))

theorem deepest_plain {c : Char} (hc : Plain c) : deepest false n (c :: s) = deepest false n s := by
  obtain ⟨hquote, hopen, hopen', hclose, hclose'⟩ := hc
  rw [deepest, if_neg hquote, if_neg (by simp [hopen, hopen']), if_neg (by simp [hclose, hclose'])]

theorem deepest_append (ht : ∀ c ∈ t, Plain c) : deepest false n (t ++ s) = deepest false n s := by
  induction t with
  | nil => rfl
  | cons c t ih =>
    obtain ⟨hc, ht⟩ := List.forall_mem_cons.mp ht
    rw [List.cons_append, deepest_plain hc, ih ht]

theorem deepest_open {c : Char} (hc : c = '[' ∨ c = '{') : deepest false n (c :: s) = deepest false (n + 1) s := by
  rcases hc with rfl | rfl <;> rfl

theorem deepest_close {c : Char} (hc : c = ']' ∨ c = '}') :
    deepest false n (c :: s) = max n (deepest false (n - 1) s) := by
  rcases hc with rfl | rfl <;> rfl

theorem Blanks.plain (h : Blanks s) : ∀ c ∈ s, Plain c := by
  intro c hc
  rcases h c hc with rfl | rfl | rfl | rfl <;> decide

theorem plain_of_isDigit {c : Char} (hc : c.isDigit = true) : Plain c := by
  refine ⟨?_, ?_, ?_, ?_, ?_⟩ <;> (rintro rfl; cases hc)

theorem Whole.plain (h : Whole s) : ∀ c ∈ s, Plain c := by
  rcases h with rfl | ⟨⟨-, h⟩, -⟩
  · exact List.forall_mem_singleton.mpr (by decide)
  · exact fun c hc => plain_of_isDigit (h c hc)

theorem Minus.plain {negative : Bool} (h : Minus s negative) : ∀ c ∈ s, Plain c := by
  cases h with
  | absent => exact List.forall_mem_nil _
  | minus => exact List.forall_mem_singleton.mpr (by decide)

theorem Sign.plain {negative : Bool} (h : Sign s negative) : ∀ c ∈ s, Plain c := by
  cases h with
  | absent => exact List.forall_mem_nil _
  | plus | minus => exact List.forall_mem_singleton.mpr (by decide)

theorem Fraction.plain {digits : Option (List Char)} (h : Fraction s digits) : ∀ c ∈ s, Plain c := by
  cases h with
  | absent => exact List.forall_mem_nil _
  | point h => exact List.forall_mem_cons.mpr ⟨by decide, fun c hc => plain_of_isDigit (h.2 c hc)⟩

theorem Exponent.plain {x : Option Int} (h : Exponent s x) : ∀ c ∈ s, Plain c := by
  cases h with
  | absent => exact List.forall_mem_nil _
  | marked hc hsign h =>
    refine List.forall_mem_cons.mpr ⟨by rcases hc with rfl | rfl <;> decide, ?_⟩
    exact List.forall_mem_append.mpr ⟨hsign.plain, fun c hc => plain_of_isDigit (h.2 c hc)⟩

theorem HexDigit.ne {c : Char} {d : Nat} (h : HexDigit c d) : c ≠ '"' ∧ c ≠ '\\' := by
  have hd := Strict.hexDigit_lt h
  constructor <;> (rintro rfl; revert h; revert d; decide)

theorem deepest_quoted_cons {c : Char} (hc : c ≠ '"' ∧ c ≠ '\\') :
    deepest true n (c :: s) = deepest true n s := by
  rw [deepest.eq_def]
  simp only [if_neg hc.1, if_neg hc.2]

theorem deepest_escape (c : Char) : deepest true n ('\\' :: c :: s) = deepest true n s := by
  rw [deepest.eq_def]
  simp only [Char.reduceEq, if_false, if_true]

theorem deepest_units {us : List Nat} (h : Units t us) :
    deepest true n (t ++ '"' :: s) = deepest false n s := by
  induction h with
  | nil =>
    rw [List.nil_append, deepest.eq_def]
    rfl
  | plain hquote hslash _ _ ih => rw [List.cons_append, deepest_quoted_cons ⟨hquote, hslash⟩, ih]
  | escape _ _ ih => rw [List.cons_append, List.cons_append, deepest_escape, ih]
  | unicode hd₁ hd₂ hd₃ hd₄ _ ih =>
    simp only [List.cons_append]
    rw [deepest_escape, deepest_quoted_cons hd₁.ne, deepest_quoted_cons hd₂.ne, deepest_quoted_cons hd₃.ne,
      deepest_quoted_cons hd₄.ne, ih]

theorem deepest_quoted {text : String} (h : Quoted t text) : deepest false n (t ++ s) = deepest false n s := by
  cases h with
  | mk h =>
    rw [List.cons_append, deepest, if_pos rfl, List.append_assoc]
    exact deepest_units h

/-! ### The texts of values -/

/-- A property of texts and of how deep they nest that holds of what has neither brackets nor quotes and of
strings, and that is kept when texts are put together or into brackets. -/
structure Compositional (P : List Char → Nat → Prop) : Prop where
  plain {t : List Char} (h : ∀ c ∈ t, Plain c) : P t 0
  quoted {t : List Char} {text : String} (h : Quoted t text) : P t 0
  append {t u : List Char} {n m : Nat} (ht : P t n) (hu : P u m) : P (t ++ u) (max n m)
  bracketed {t : List Char} {n : Nat} {a b : Char} (ha : a = '[' ∨ a = '{') (hb : b = ']' ∨ b = '}')
    (ht : P t n) : P (a :: (t ++ [b])) (n + 1)

namespace Compositional

variable {P : List Char → Nat → Prop} (hP : Compositional P)
include hP

/-- What is plain may be put in front. -/
theorem plain_append {t u : List Char} {n : Nat} (ht : ∀ c ∈ t, Plain c) (hu : P u n) : P (t ++ u) n := by
  have h := hP.append (hP.plain ht) hu
  rwa [Nat.zero_max] at h

/-- What is plain may be put behind. -/
theorem append_plain {t u : List Char} {n : Nat} (ht : P t n) (hu : ∀ c ∈ u, Plain c) : P (t ++ u) n := by
  have h := hP.append ht (hP.plain hu)
  rwa [Nat.max_zero] at h

theorem enclosed {a b : Char} {w w' : List Char} (ha : a = '[' ∨ a = '{') (hb : b = ']' ∨ b = '}')
    (hw : Blanks w) (ht : P t n) (hw' : Blanks w') : P (a :: (w ++ (t ++ (w' ++ [b])))) (n + 1) := by
  have h := hP.bracketed ha hb (hP.plain_append hw.plain (hP.append_plain ht hw'.plain))
  simpa using h

/-- What is between two parts is plain. -/
theorem separated {c : Char} {w w' u : List Char} {m : Nat} (hc : Plain c) (hw : Blanks w) (hw' : Blanks w')
    (ht : P t n) (hu : P u m) : P (t ++ (w ++ c :: (w' ++ u))) (max n m) := by
  have hc : ∀ x ∈ [c], Plain x := List.forall_mem_singleton.mpr hc
  exact hP.append ht (hP.plain_append hw.plain (hP.plain_append hc (hP.plain_append hw'.plain hu)))

theorem listed {α : Type} {Part : List Char → α → Nat → Nat → Prop} {level : Nat} {as : List α} {d m : Nat}
    (hpart : ∀ t a d m, Part t a d m → m ≤ level → P t m) (h : Listed Part t as d m) (hm : m ≤ level) : P t m := by
  induction h with
  | single h => exact hpart _ _ _ _ h hm
  | cons h hw hw' _ ih =>
    have hfirst := hpart _ _ _ _ h ((le_max_left ..).trans hm)
    have hrest := ih ((le_max_right ..).trans hm)
    exact hP.separated (by decide) hw hw' hfirst hrest

theorem member_of {m : String × Value} {d k : Nat} (h : Member t m d k)
    (hvalue : ∀ {u : List Char} {v : Value}, Derives u v d k → P u k) : P t k := by
  cases h with
  | mk hkey hw hw' h =>
    have h := hP.separated (c := ':') (by decide) hw hw' (hP.quoted hkey) (hvalue h)
    rwa [Nat.zero_max] at h

/-- The text of a value has the property, by induction on how deep it nests. -/
theorem derives {v : Value} {d m : Nat} (h : Derives t v d m) : P t m := by
  induction m using Nat.strongRecOn generalizing t v d with
  | ind m ih =>
    have hinside {level : Nat} (hlevel : level < m) (u : List Char) (w : Value) (e k : Nat) (h : Derives u w e k)
        (hk : k ≤ level) : P u k := ih k (Nat.lt_of_le_of_lt hk hlevel) h
    cases h with
    | null | true | false => exact hP.plain (by simp [Plain])
    | int hsign hwhole => exact hP.plain (List.forall_mem_append.mpr ⟨hsign.plain, hwhole.plain⟩)
    | decimal hsign hwhole hf he =>
      refine hP.plain (List.forall_mem_append.mpr ⟨hsign.plain, ?_⟩)
      exact List.forall_mem_append.mpr ⟨hwhole.plain, List.forall_mem_append.mpr ⟨hf.plain, he.plain⟩⟩
    | str h => exact hP.quoted h
    | emptyArr hw => exact hP.bracketed (.inl rfl) (.inl rfl) (hP.plain hw.plain)
    | emptyObj hw => exact hP.bracketed (.inr rfl) (.inr rfl) (hP.plain hw.plain)
    | @arr _ _ _ _ _ n hw h hw' =>
      have hitems := hP.listed (hinside (Nat.lt_succ_self n)) h le_rfl
      exact hP.enclosed (.inl rfl) (.inl rfl) hw hitems hw'
    | @obj _ _ _ _ _ n hw h hw' =>
      have hmembers := hP.listed
        (fun _ _ _ _ h hk => hP.member_of h (hinside (Nat.lt_succ_self n) _ _ _ _ · hk)) h le_rfl
      exact hP.enclosed (.inr rfl) (.inr rfl) hw hmembers hw'

theorem member {m : String × Value} {d k : Nat} (h : Member t m d k) : P t k := hP.member_of h hP.derives

end Compositional

/-! ### Nesting of the texts of values -/

/-- In front of any other text, a text nests as deep as it says and takes nothing away from the nesting of the
other: all brackets that it opens it closes again, and no others. -/
def Nests (t : List Char) (m : Nat) : Prop := ∀ n s, max (n + m) (deepest false n s) ≤ deepest false n (t ++ s)

theorem compositional_nests : Compositional Nests where
  plain h n s := by
    rw [deepest_append h, Nat.add_zero]
    exact max_le (le_deepest ..) le_rfl
  quoted h n s := by
    rw [deepest_quoted h, Nat.add_zero]
    exact max_le (le_deepest ..) le_rfl
  append {t u m k} ht hu n s := by
    have hfirst := ht n (u ++ s)
    have hsecond := hu n s
    rw [List.append_assoc]
    omega
  bracketed {t m a b} ha hb ht n s := by
    have hinner := ht (n + 1) (b :: s)
    rw [deepest_close hb, Nat.add_sub_cancel] at hinner
    rw [List.cons_append, List.append_assoc, List.singleton_append, deepest_open ha]
    omega

/-- In front of any other text, a text takes nothing away from its nesting. -/
def Neutral (t : List Char) : Prop := ∀ n s, deepest false n s ≤ deepest false n (t ++ s)

theorem Nests.neutral {m : Nat} (h : Nests t m) : Neutral t := fun n s => (le_max_right ..).trans (h n s)

theorem neutral_of_plain (h : ∀ c ∈ t, Plain c) : Neutral t := (compositional_nests.plain h).neutral

theorem Blanks.neutral (h : Blanks t) : Neutral t := neutral_of_plain h.plain

theorem Quoted.neutral {text : String} (h : Quoted t text) : Neutral t := (compositional_nests.quoted h).neutral

theorem Neutral.append {u : List Char} (ht : Neutral t) (hu : Neutral u) : Neutral (t ++ u) := fun n s => by
  rw [List.append_assoc]
  exact (hu n s).trans (ht n (u ++ s))

theorem Neutral.cons {c : Char} (hc : Plain c) (ht : Neutral t) : Neutral (c :: t) :=
  (neutral_of_plain (List.forall_mem_singleton.mpr hc)).append ht

theorem Derives.neutral {v : Value} {d m : Nat} (h : Derives t v d m) : Neutral t :=
  (compositional_nests.derives h).neutral

theorem Member.neutral {m : String × Value} {d k : Nat} (h : Member t m d k) : Neutral t :=
  (compositional_nests.member h).neutral

/-- A document nests as deep as its text. -/
theorem Document.le_nesting {v : Value} {d m : Nat} (h : Document t v d m) : m ≤ nesting t := by
  cases h with
  | @mk w s w' _ _ _ hw h _ =>
    have hinner := compositional_nests.derives h 0 w'
    rw [nesting, deepest_append hw.plain]
    omega

end JsonShape.Grammar

namespace JsonShape.Strict

open Grammar (deepest nesting Neutral)

variable {s : List Char}

/-! ### Giving up -/

/-- The reader gives up, because it would have to go down too deep, only if something is so. -/
def GivesUpOnly {α : Type} (P : Prop) (r : Result α) : Prop := r = .error .tooDeep → P

namespace GivesUpOnly

variable {α β : Type} {P : Prop} {r : Result α}

theorem ok (p : α × List Char) : GivesUpOnly P (.ok p) := nofun

theorem problem (what : Problem) (left : Nat) :
    GivesUpOnly P (.error (.problem what left) : Result α) := nofun

theorem mono {Q : Prop} (h : GivesUpOnly P r) (himp : P → Q) : GivesUpOnly Q r := fun hr => himp (h hr)

theorem bind {f : α × List Char → Result β} (hr : GivesUpOnly P r)
    (hf : ∀ a rest, r = .ok (a, rest) → GivesUpOnly P (f (a, rest))) : GivesUpOnly P (r.bind f) := by
  cases r with
  | error e =>
    rintro ⟨⟩
    exact hr rfl
  | ok p => exact hf p.1 p.2 rfl

theorem map {f : α × List Char → β × List Char} (hr : GivesUpOnly P r) : GivesUpOnly P (r.map f) := by
  cases r with
  | error e =>
    rintro ⟨⟩
    exact hr rfl
  | ok p => exact ok _

end GivesUpOnly

/-! ### Parts without brackets -/

theorem readUnits_givesUp (opening : Nat) (s : List Char) : GivesUpOnly False (readUnits opening s) := by
  fun_induction readUnits opening s with
  | case2 => exact .ok _
  | case5 _ _ _ _ _ _ _ _ _ ih => exact ih.map
  | case8 _ _ _ _ _ _ ih => exact ih.map
  | case11 _ _ _ _ _ ih => exact ih.map
  | case1 | case3 | case4 | case6 | case7 | case9 | case10 => exact .problem _ _

theorem string_givesUp (s : List Char) : GivesUpOnly False (string s) := (readUnits_givesUp _ s).map

theorem unsigned_givesUp (left : Nat) (negative : Bool) (s : List Char) :
    GivesUpOnly False (unsigned left negative s) := by
  unfold unsigned
  split
  · exact .problem _ _
  · dsimp only
    split
    · split
      · exact nofun
      · exact .ok _
    · exact .ok _

theorem scalar_givesUp (named : Bool) (s : List Char) : GivesUpOnly False (scalar named s) := by
  unfold scalar
  split
  · exact (string_givesUp _).map
  · split
    · exact .ok _
    · split
      · exact .ok _
      · exact nofun
    · unfold number
      split <;> exact unsigned_givesUp _ _ _

theorem memberKey_givesUp (s : List Char) : GivesUpOnly False (memberKey s) := by
  unfold memberKey
  split
  · refine (string_givesUp _).bind fun key rest _ => ?_
    dsimp only
    split
    · exact .ok _
    · exact .problem _ _
  · exact .problem _ _

/-! ### Values -/

/-- The brackets of a text nest deeper than so many levels, however many are open in front of it. -/
def Deep (levels : Nat) (s : List Char) : Prop := ∀ n, n + levels < deepest false n s

theorem Deep.append {levels : Nat} {t : List Char} (h : Deep levels s) (ht : Neutral t) : Deep levels (t ++ s) :=
  fun n => Nat.lt_of_lt_of_le (h n) (ht n s)

theorem Deep.cons {levels : Nat} (h : Deep levels s) {c : Char} (hc : Grammar.Plain c) : Deep levels (c :: s) :=
  fun n => by
    rw [Grammar.deepest_plain hc]
    exact h n

theorem Deep.bracket {levels : Nat} (h : Deep levels s) {c : Char} (hc : c = '[' ∨ c = '{') :
    Deep (levels + 1) (c :: s) := fun n => by
  rw [Grammar.deepest_open hc]
  have := h (n + 1)
  omega

theorem deep_of_blanks {levels : Nat} (h : Deep levels (skipSpace s)) : Deep levels s := by
  obtain ⟨w, hw, hs⟩ := exists_blanks s
  rw [hs]
  exact h.append hw.neutral

theorem listed_givesUp {α : Type} {part : List Char → Result α} {levels : Nat}
    (hpart : ∀ s, GivesUpOnly (Deep levels s) (part s)) (htakes : ∀ s, Takes (fun t _ => Neutral t) s (part s))
    (close : Char) (turns : Nat) (s : List Char) :
    GivesUpOnly (Deep levels s) (listed part close turns s) := by
  induction turns generalizing s with
  | zero => exact .problem _ _
  | succ turns ih =>
    refine (hpart s).bind fun a rest hread => ?_
    obtain ⟨t, rfl, ht⟩ := htakes s a rest hread
    dsimp only
    split
    · exact .problem _ _
    · next c after hskip =>
      split
      · exact .ok _
      · split
        · next hc =>
          refine ((ih (skipSpace after)).map).mono fun hdeep => ?_
          have hcomma : Deep levels (c :: after) := (deep_of_blanks hdeep).cons (by rw [hc]; decide)
          rw [← hskip] at hcomma
          exact (deep_of_blanks hcomma).append ht
        · exact .problem _ _

section

variable {value : List Char → Result Value} {levels : Nat}
  (hvalue : ∀ s, GivesUpOnly (Deep levels s) (value s)) (htakes : ∀ s, Takes (Readable levels) s (value s))
include hvalue

theorem member_givesUp (s : List Char) : GivesUpOnly (Deep levels s) (member value s) := by
  refine ((memberKey_givesUp s).mono False.elim).bind fun key rest hread => ?_
  obtain ⟨t, rfl, k, w, w', rfl, hkey, hw, hw'⟩ := takes_memberKey s key rest hread
  refine (hvalue rest).map.mono fun hdeep => hdeep.append ?_
  exact hkey.neutral.append (hw.neutral.append (.cons (by decide) hw'.neutral))

include htakes

theorem array_givesUp (s : List Char) : GivesUpOnly (Deep levels s) (array value s) := by
  have hneutral (s : List Char) : Takes (fun t _ => Neutral t) s (value s) :=
    (htakes s).mono fun t v ⟨d, n, h, _⟩ => h.neutral
  unfold array
  split
  · exact .ok _
  · exact (listed_givesUp hvalue hneutral _ _ _).map.mono deep_of_blanks

theorem object_givesUp (s : List Char) : GivesUpOnly (Deep levels s) (object value s) := by
  have hneutral (s : List Char) : Takes (fun t _ => Neutral t) s (member value s) :=
    (takes_member htakes s).mono fun t m ⟨d, n, h, _⟩ => h.neutral
  unfold object
  split
  · exact .ok _
  · exact (listed_givesUp (member_givesUp hvalue) hneutral _ _ _).map.mono deep_of_blanks

end

/-- The reader gives up on a value only if its brackets nest deeper than the levels that are left. -/
theorem value_givesUp (levels : Nat) (s : List Char) :
    GivesUpOnly (Deep levels s) (Strict.value false levels s) := by
  induction levels generalizing s with
  | zero =>
    have hopen {c : Char} (hc : c = '[' ∨ c = '{') (rest : List Char) : Deep 0 (c :: rest) := fun n => by
      rw [Grammar.deepest_open hc]
      exact Grammar.le_deepest false (n + 1) rest
    unfold Strict.value
    split
    · exact fun _ => hopen (.inr rfl) _
    · exact fun _ => hopen (.inl rfl) _
    · exact (scalar_givesUp false s).mono False.elim
  | succ levels ih =>
    unfold Strict.value
    split
    · exact (object_givesUp ih (takes_value levels) _).mono fun hdeep => hdeep.bracket (.inr rfl)
    · exact (array_givesUp ih (takes_value levels) _).mono fun hdeep => hdeep.bracket (.inl rfl)
    · exact (scalar_givesUp false s).mono False.elim

/-- Decoding gives up only on texts that nest deeper than the reader goes down. -/
theorem lt_nesting_of_decode {text : List Char} (h : decode false text = .error .tooDeep) :
    maxLevels < nesting text := by
  have hdeep : Strict.value false maxLevels (skipSpace text) = .error .tooDeep := by
    unfold decode document at h
    cases hread : Strict.value false maxLevels (skipSpace text) with
    | error e =>
      rw [hread] at h
      cases e <;> simp_all [Except.bind, Except.mapError, Failure.toError]
    | ok p =>
      rw [hread] at h
      simp only [Except.bind] at h
      split at h <;> simp [Except.mapError, Failure.toError] at h
  have hnesting := deep_of_blanks (value_givesUp maxLevels _ hdeep) 0
  rwa [Nat.zero_add] at hnesting

end JsonShape.Strict
