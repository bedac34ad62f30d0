import JsonShape.Proofs.Document.LenientLexemes
import JsonShape.Proofs.Document.RepeatedKeys

/-!
# The lenient reader follows the grammar

The lenient reader reads every document of its grammar as the value that it stands for, within its limits. Scalars
come first; arrays and objects are read as alike, by loops over lists of parts that may end with a comma; values
follow by induction on the levels that the reader may still go down. `Lenient.follows` is what the decoder of
lenient documents is assumed to do, so that the assumption is one that a decoder can meet.
-/

namespace JsonShape.Lenient

open Json5 (Ending Gap NameChar Number)

variable {s rest : List Char}

/-! ### Scalars -/

/-- A character that a value or a key may start with: no blank, no start of a comment, no closing bracket. -/
def Opens (c : Char) : Prop := Solid c ∧ c ≠ ']' ∧ c ≠ '}'

instance (c : Char) : Decidable (Opens c) := inferInstanceAs (Decidable (_ ∧ _))

/-- A character that a number may start with, and no other value. -/
def OpensNumber (c : Char) : Prop :=
  Opens c ∧ (c ≠ 'n' ∧ c ≠ 't' ∧ c ≠ 'f') ∧ (c ≠ '"' ∧ c ≠ '\'') ∧ c ≠ '{' ∧ c ≠ '['

instance (c : Char) : Decidable (OpensNumber c) := inferInstanceAs (Decidable (_ ∧ _))

theorem opensNumber_of_isDigit {c : Char} (hc : c.isDigit = true) : OpensNumber c := by
  have hdigits : ∀ n ∈ List.range' 48 10, OpensNumber (Char.ofNat n) := by decide
  have hrange : 48 ≤ c.toNat ∧ c.toNat ≤ 57 := by
    simpa [Char.isDigit, UInt32.le_iff_toNat_le] using hc
  have h := hdigits c.toNat (List.mem_range'_1.mpr (by omega))
  rwa [Char.ofNat_toNat] at h

/-- What is behind the sign of a number is no sign, and may start a number. -/
theorem number_head {negative : Bool} {v : Value} {d : Nat} (h : Number negative s v d) :
    ∃ c u, s = c :: u ∧ OpensNumber c ∧ c ≠ '-' ∧ c ≠ '+' := by
  have hwhole {whole : List Char} (h : Grammar.Whole whole) (t : List Char) :
      ∃ c u, whole ++ t = c :: u ∧ OpensNumber c ∧ c ≠ '-' ∧ c ≠ '+' := by
    obtain ⟨c, ds, rfl, hc⟩ := Strict.whole_head h
    refine ⟨c, ds ++ t, rfl, opensNumber_of_isDigit hc, ?_, ?_⟩ <;> (rintro rfl; cases hc)
  cases h with
  | int h => simpa using hwhole h []
  | point h => exact hwhole h _
  | exponent h => exact hwhole h _
  | pointFirst | hexadecimal | infinity | nan => exact ⟨_, _, rfl, by decide⟩

theorem number_append {sign : List Char} {negative : Bool} {v : Value} {d : Nat}
    (hsign : Grammar.Sign sign negative) (h : Number negative s v d) (hd : d ≤ maxIntegerDigits)
    (hrest : Stops rest) : number (sign ++ (s ++ rest)) = .ok (v, rest) := by
  have hread : Scan.sign (sign ++ (s ++ rest)) = (negative, s ++ rest) := by
    obtain ⟨c, u, rfl, -, hc⟩ := number_head h
    exact Strict.sign_append hsign (by rintro _ ⟨⟩; exact hc)
  rw [number, hread]
  rcases unsigned_append h hd hrest with hdecimal | ⟨hnone, hother⟩
  · simp only [hdecimal]
  · simp only [hnone, hother]

/-- A signed number starts with a character that no other value starts with. -/
theorem signed_head {sign : List Char} {negative : Bool} {v : Value} {d : Nat}
    (hsign : Grammar.Sign sign negative) (h : Number negative s v d) :
    ∃ c u, sign ++ s = c :: u ∧ OpensNumber c := by
  obtain ⟨c, u, rfl, hc, -⟩ := number_head h
  cases hsign with
  | absent => exact ⟨c, u, rfl, hc⟩
  | plus | minus => exact ⟨_, _, rfl, by decide⟩

/-- No literal starts with a character of its own. -/
theorem literal?_eq_none {c : Char} (hc : c ≠ 'n' ∧ c ≠ 't' ∧ c ≠ 'f') : literal? (c :: s) = none := by
  obtain ⟨hn, ht, hf⟩ := hc
  simp [literal?, Scan.after?, hn.symm, ht.symm, hf.symm]

theorem scalar_eq_number {c : Char} (hc : OpensNumber c) : scalar (c :: s) = number (c :: s) := by
  obtain ⟨-, hliteral, hquote, -⟩ := hc
  unfold scalar
  rw [literal?_eq_none hliteral]
  dsimp only
  split
  · next heq => exact absurd (List.cons.inj heq).1 hquote.1
  · next heq => exact absurd (List.cons.inj heq).1 hquote.2
  · rfl

/-- A value without brackets is read as it is written. -/
theorem scalar_append {t : List Char} {v : Value} {d n : Nat} (h : Json5.Derives t v d n) (hn : n = 0)
    (hd : d ≤ maxIntegerDigits) (hrest : Stops rest) : scalar (t ++ rest) = .ok (v, rest) := by
  cases h with
  | null | true | false => rfl
  | number hsign h =>
    have hread := number_append hsign h hd hrest
    obtain ⟨c, u, heq, hc⟩ := signed_head hsign h
    rw [← List.append_assoc, heq] at hread
    rw [heq]
    exact (scalar_eq_number hc).trans hread
  | str h =>
    obtain ⟨quote, u, hquote, rfl, hu⟩ := string_append h rest
    have hnone : literal? (quote :: (u ++ rest)) = none :=
      literal?_eq_none (by rcases hquote with rfl | rfl <;> decide)
    rcases hquote with rfl | rfl <;> simp only [List.cons_append, scalar, hnone, hu, Except.map]
  | emptyArr | arr | emptyObj | obj => cases hn

/-- A text without brackets starts with none. -/
theorem scalar_head {t : List Char} {v : Value} {d n : Nat} (h : Json5.Derives t v d n) (hn : n = 0) :
    ∃ c u, t = c :: u ∧ Opens c ∧ c ≠ '{' ∧ c ≠ '[' := by
  cases h with
  | null | true | false => exact ⟨_, _, rfl, by decide⟩
  | number hsign h =>
    obtain ⟨c, u, heq, hc, -, -, hbracket⟩ := signed_head hsign h
    exact ⟨c, u, heq, hc, hbracket⟩
  | str h =>
    obtain ⟨hquote, -⟩ := h
    rcases hquote with rfl | rfl <;> exact ⟨_, _, rfl, by decide⟩
  | emptyArr | arr | emptyObj | obj => cases hn

theorem derives_head (t : List Char) (v : Value) (d n : Nat) (h : Json5.Derives t v d n) :
    ∃ c u, t = c :: u ∧ Opens c := by
  rcases Nat.eq_zero_or_pos n with hn | hn
  · obtain ⟨c, u, rfl, hc, -⟩ := scalar_head h hn
    exact ⟨c, u, rfl, hc⟩
  · cases h with
    | null | true | false | str | number => cases hn
    | emptyArr | arr | emptyObj | obj => exact ⟨_, _, rfl, by decide⟩

/-- What starts with no opening bracket is read as a scalar, on any level. -/
theorem value_eq_scalar {c : Char} (hc : c ≠ '{' ∧ c ≠ '[') (levels : Nat) (s : List Char) :
    Lenient.value levels (c :: s) = scalar (c :: s) := by
  cases levels with
  | zero =>
    unfold Lenient.value
    split
    · next heq => exact absurd (List.cons.inj heq).1 hc.1
    · next heq => exact absurd (List.cons.inj heq).1 hc.2
    · rfl
  | succ levels =>
    unfold Lenient.value
    split
    · next heq => exact absurd (List.cons.inj heq).1 hc.1
    · next heq => exact absurd (List.cons.inj heq).1 hc.2
    · rfl

/-! ### Lists of parts -/

/-- A loop reads parts up to a closing bracket: a part before the bracket is the last, and behind a comma it goes
on with the others, of which there may be none. -/
structure ReadsList {α : Type} (part : List Char → Result α) (close : Char)
    (loop : Nat → List Char → Result (List α)) : Prop where
  closed (turns : Nat) (rest : List Char) : loop (turns + 1) (close :: rest) = .ok ([], rest)
  last (turns : Nat) {s rest after : List Char} {a : α} (hs : s.head? ≠ some close) (h : part s = .ok (a, rest))
    (hrest : skipSpace rest = close :: after) : loop (turns + 1) s = .ok ([a], after)
  more (turns : Nat) {s rest after : List Char} {a : α} (hs : s.head? ≠ some close) (h : part s = .ok (a, rest))
    (hrest : skipSpace rest = ',' :: after) :
    loop (turns + 1) s = (loop turns (skipSpace after)).map fun (as, rest) => (a :: as, rest)

theorem listed_length_le {α : Type} {Part : List Char → α → Nat → Nat → Prop} {as : List α} {d n : Nat}
    (h : Json5.Listed Part s as d n) : as.length ≤ s.length + 1 := by
  induction h with
  | single => simp
  | cons _ _ _ _ ih =>
    simp only [List.length_cons, List.length_append]
    omega

section

variable {α β : Type} {part : List Char → Result β} {Part : List Char → α → Nat → Nat → Prop} {close : Char}
  {loop : Nat → List Char → Result (List β)} {g : α → β} {digits levels : Nat}
  (hloop : ReadsList part close loop) (hclose : close = ']' ∨ close = '}')
  (hhead : ∀ t a d n, Part t a d n → ∃ c u, t = c :: u ∧ Opens c)
  (hpart : ∀ t a rest, Grammar.Within Part digits levels t a → Stops rest → part (t ++ rest) = .ok (g a, rest))

include hhead in
theorem listed_head {as : List α} {d n : Nat} (h : Json5.Listed Part s as d n) :
    ∃ c u, s = c :: u ∧ Opens c := by
  cases h with
  | single h => exact hhead _ _ _ _ h
  | cons h =>
    obtain ⟨c, u, rfl, hc⟩ := hhead _ _ _ _ h
    exact ⟨c, _, rfl, hc⟩

include hclose in
theorem Opens.head_ne {c : Char} (hc : Opens c) (s : List Char) : (c :: s).head? ≠ some close := by
  obtain ⟨-, hbracket, hbrace⟩ := hc
  rcases hclose with rfl | rfl <;> simpa

include hloop hclose hhead hpart

/-- The last part of a list is read up to the closing bracket, with a comma in front of it or not. -/
theorem ReadsList.last_append {a : α} {d n : Nat} (h : Part s a d n) (hd : d ≤ digits) (hn : n ≤ levels)
    {e : List Char} (he : Ending e) (turns : Nat) :
    loop (turns + 1 + 1) (s ++ (e ++ close :: rest)) = .ok ([g a], rest) := by
  have hsolid : Solid close := by rcases hclose with rfl | rfl <;> decide
  have hbracket : Stops (close :: rest) := by
    rintro _ ⟨⟩
    exact .inr (.inr (.inr hclose))
  have hcomma (s : List Char) : Stops (',' :: s) := by
    rintro _ ⟨⟩
    exact .inr (.inr (.inl rfl))
  cases he with
  | gap hw =>
    have hread := hpart s a _ ⟨d, n, h, hd, hn⟩ (stops_append hw hbracket)
    obtain ⟨c, u, rfl, hc⟩ := hhead s a d n h
    exact hloop.last (turns + 1) (hc.head_ne hclose _) hread (skipSpace_append_cons hw hsolid rest)
  | @comma w w' hw hw' =>
    have hread := hpart s a _ ⟨d, n, h, hd, hn⟩ (stops_append hw (hcomma (w' ++ close :: rest)))
    obtain ⟨c, u, rfl, hc⟩ := hhead s a d n h
    have hskip := skipSpace_append_cons hw (c := ',') (by decide) (w' ++ close :: rest)
    have hstep := hloop.more (turns + 1) (hc.head_ne hclose _) hread hskip
    rw [skipSpace_append_cons hw' hsolid, hloop.closed] at hstep
    simpa [Except.map] using hstep

/-- A list of parts by the grammar is read up to its closing bracket, by induction on the list. -/
theorem ReadsList.append {as : List α} {d n : Nat} (h : Json5.Listed Part s as d n) (hd : d ≤ digits)
    (hn : n ≤ levels) {e : List Char} (he : Ending e) {turns : Nat} (hturns : as.length < turns) :
    loop turns (s ++ (e ++ close :: rest)) = .ok (as.map g, rest) := by
  induction h generalizing turns with
  | @single s a d n h =>
    obtain _ | _ | turns := turns
    · cases hturns
    · simp at hturns
    exact hloop.last_append hclose hhead hpart h hd hn he turns
  | @cons s w w' t a as d n _ _ h hw hw' ht ih =>
    obtain _ | turns := turns
    · cases hturns
    have hcomma : Stops (',' :: (w' ++ (t ++ (e ++ close :: rest)))) := by
      rintro _ ⟨⟩
      exact .inr (.inr (.inl rfl))
    have hread := hpart s a _ ⟨d, n, h, le_trans (le_max_left ..) hd, le_trans (le_max_left ..) hn⟩
      (stops_append hw hcomma)
    have hrest := ih (le_trans (le_max_right ..) hd) (le_trans (le_max_right ..) hn)
      (Nat.lt_of_succ_lt_succ hturns)
    have hskip : skipSpace (w' ++ (t ++ (e ++ close :: rest))) = t ++ (e ++ close :: rest) := by
      obtain ⟨c, u, rfl, hc⟩ := listed_head hhead ht
      exact skipSpace_append_cons hw' hc.1 _
    obtain ⟨c, u, rfl, hc⟩ := hhead s a d n h
    have hstep := hloop.more turns (hc.head_ne hclose _) hread (skipSpace_append_cons hw (by decide) _)
    rw [hskip, hrest] at hstep
    simpa [Except.map] using hstep

/-- A list is read behind its opening bracket, with as many turns as the text has characters. -/
theorem ReadsList.start {w e : List Char} {as : List α} {d n : Nat} (hw : Gap w)
    (h : Json5.Listed Part s as d n) (he : Ending e) (hd : d ≤ digits) (hn : n ≤ levels) (rest : List Char) :
    let start := skipSpace (w ++ (s ++ (e ++ close :: rest)))
    loop (start.length + 1) start = .ok (as.map g, rest) := by
  have hskip : skipSpace (w ++ (s ++ (e ++ close :: rest))) = s ++ (e ++ close :: rest) := by
    obtain ⟨c, u, rfl, hc⟩ := listed_head hhead h
    exact skipSpace_append_cons hw hc.1 _
  have hturns : as.length < (s ++ (e ++ close :: rest)).length + 1 := by
    have hlength := listed_length_le h
    simp only [List.length_append, List.length_cons]
    omega
  simp only [hskip]
  exact hloop.append hclose hhead hpart h hd hn he hturns

end

variable {value : List Char → Result Value} {levels : Nat}

theorem readsList_items : ReadsList value ']' (items value) where
  closed _ _ := rfl
  last turns {s rest after v} hs h hrest := by
    rw [items.eq_def value (turns + 1)]
    dsimp only
    split
    · exact absurd rfl hs
    · simp only [h, Except.bind, hrest]
  more turns {s rest after v} hs h hrest := by
    rw [items.eq_def value (turns + 1)]
    dsimp only
    split
    · exact absurd rfl hs
    · simp only [h, Except.bind, hrest]

/-- A member of an object, as the loop over members reads it. -/
def member (value : List Char → Result Value) (s : List Char) : Result (Key × Value) :=
  (memberKey s).bind fun (key, rest) => (value rest).map fun (v, rest) => ((.text key, v), rest)

theorem member_eq_ok {m : JsonShape.Key × Value} (h : member value s = .ok (m, rest)) :
    ∃ key v after, memberKey s = .ok (key, after) ∧ value after = .ok (v, rest) ∧ m = (.text key, v) := by
  unfold member at h
  cases hkey : memberKey s with
  | error e =>
    rw [hkey] at h
    cases h
  | ok p =>
    obtain ⟨key, after⟩ := p
    cases hvalue : value after with
    | error e => simp [hkey, Except.bind, hvalue, Except.map] at h
    | ok q =>
      obtain ⟨v, rest'⟩ := q
      simp only [hkey, Except.bind, hvalue, Except.map, Except.ok.injEq, Prod.mk.injEq] at h
      obtain ⟨rfl, rfl⟩ := h
      exact ⟨key, v, after, rfl, hvalue, rfl⟩

theorem readsList_members : ReadsList (member value) '}' (members value) where
  closed _ _ := rfl
  last turns {s rest after m} hs h hrest := by
    obtain ⟨key, v, behind, hkey, hvalue, rfl⟩ := member_eq_ok h
    rw [members.eq_def value (turns + 1)]
    dsimp only
    split
    · exact absurd rfl hs
    · simp only [hkey, Except.bind, hvalue, hrest]
  more turns {s rest after m} hs h hrest := by
    obtain ⟨key, v, behind, hkey, hvalue, rfl⟩ := member_eq_ok h
    rw [members.eq_def value (turns + 1)]
    dsimp only
    split
    · exact absurd rfl hs
    · simp only [hkey, Except.bind, hvalue, hrest]

/-! ### Members, arrays and objects -/

theorem startsName_head {c : Char} (hc : Text.startsName c = true) : Opens c ∧ c ≠ '"' ∧ c ≠ '\'' := by
  have hne (x : Char) (hx : Text.startsName x = false) : c ≠ x := by
    rintro rfl
    rw [hx] at hc
    cases hc
  have hspace : isSpace c = false := by
    refine Bool.eq_false_iff.mpr fun h => ?_
    rw [startsName_of_not_continues (continuesName_space (isSpace_iff.mp h))] at hc
    cases hc
  exact ⟨⟨⟨hspace, hne '/' rfl⟩, hne ']' rfl, hne '}' rfl⟩, hne '"' rfl, hne '\'' rfl⟩

theorem nameStart_head {t : List Char} {c : Char} (h : NameChar Text.startsName t c) :
    ∃ x u, t = x :: u ∧ Opens x ∧ x ≠ '"' ∧ x ≠ '\'' := by
  cases h with
  | plain hc => exact ⟨c, [], rfl, startsName_head hc⟩
  | unicode => exact ⟨_, _, rfl, by decide⟩

theorem key_head {k : List Char} {key : String} (h : Json5.Key k key) : ∃ c u, k = c :: u ∧ Opens c := by
  cases h with
  | quoted h =>
    obtain ⟨hquote, -⟩ := h
    rcases hquote with rfl | rfl <;> exact ⟨_, _, rfl, by decide⟩
  | name hc _ =>
    obtain ⟨x, u, rfl, hx, -⟩ := nameStart_head hc
    exact ⟨x, _, rfl, hx⟩

/-- Neither blanks nor comments nor the colon behind a key go on with a name. -/
theorem nameChar?_colon {w : List Char} (hw : Gap w) (s : List Char) :
    nameChar? Text.continuesName (w ++ ':' :: s) = none := by
  cases w with
  | nil => exact nameChar?_eq_none (by decide) (by decide)
  | cons x w =>
    rcases gap_head hw x rfl with hx | rfl
    · exact (nameChar?_space hx _).2
    · exact nameChar?_eq_none (by decide) (by decide)

theorem memberKey_append {k w w' : List Char} {key : String} (hkey : Json5.Key k key) (hw : Gap w) (hw' : Gap w')
    (hrest : afterBlank? rest = none) : memberKey (k ++ (w ++ ':' :: (w' ++ rest))) = .ok (key, rest) := by
  have hskip := skipSpace_append_cons hw (c := ':') (by decide) (w' ++ rest)
  have hskip' := skipSpace_append hw' hrest
  cases hkey with
  | quoted h =>
    obtain ⟨quote, u, hquote, rfl, hu⟩ := string_append h (w ++ ':' :: (w' ++ rest))
    rcases hquote with rfl | rfl <;>
      simp only [memberKey, List.cons_append, hu, Except.bind, hskip, hskip']
  | name hc h =>
    have hread := name_append hc h (nameChar?_colon hw (w' ++ rest))
    obtain ⟨x, u, rfl, -, hquote⟩ := nameStart_head hc
    rw [List.append_assoc]
    unfold memberKey
    dsimp only
    split
    · next heq => exact absurd (List.cons.inj heq).1 hquote.1
    · next heq => exact absurd (List.cons.inj heq).1 hquote.2
    · simp only [hread, Except.bind, hskip, hskip']

theorem member_head (t : List Char) (m : String × Value) (d n : Nat) (h : Json5.Member t m d n) :
    ∃ c u, t = c :: u ∧ Opens c := by
  cases h with
  | mk hkey =>
    obtain ⟨c, u, rfl, hc⟩ := key_head hkey
    exact ⟨c, _, rfl, hc⟩

section

variable (hvalue : ∀ t v rest, Grammar.Within Json5.Derives maxIntegerDigits levels t v → Stops rest →
  value (t ++ rest) = .ok (v, rest))
include hvalue

theorem member_append (t : List Char) (m : String × Value) (rest : List Char)
    (h : Grammar.Within Json5.Member maxIntegerDigits levels t m) (hrest : Stops rest) :
    member value (t ++ rest) = .ok ((.text m.1, m.2), rest) := by
  obtain ⟨d, n, h, hd, hn⟩ := h
  cases h with
  | @mk k w w' s key v _ _ hkey hw hw' hv =>
    have hhead : afterBlank? (s ++ rest) = none := by
      obtain ⟨c, u, rfl, hc⟩ := derives_head s v d n hv
      exact afterBlank?_solid hc.1
    have hkeyread := memberKey_append hkey hw hw' hhead
    simp only [List.append_assoc, List.cons_append, member, hkeyread, Except.bind,
      hvalue s v rest ⟨d, n, hv, hd, hn⟩ hrest, Except.map]

theorem array_append {w s e : List Char} {vs : List Value} {d n : Nat} (hw : Gap w)
    (h : Json5.Listed Json5.Derives s vs d n) (he : Ending e) (hd : d ≤ maxIntegerDigits) (hn : n ≤ levels)
    (rest : List Char) : array value (w ++ (s ++ (e ++ ']' :: rest))) = .ok (.arr vs, rest) := by
  have hread := readsList_items.start (.inl rfl) derives_head (g := id) hvalue hw h he hd hn rest
  simp only [List.map_id] at hread
  simp only [array, hread, Except.map]

theorem object_append {w s e : List Char} {ms : List (String × Value)} {d n : Nat} (hw : Gap w)
    (h : Json5.Listed Json5.Member s ms d n) (he : Ending e) (hd : d ≤ maxIntegerDigits) (hn : n ≤ levels)
    (rest : List Char) : object value (w ++ (s ++ (e ++ '}' :: rest))) = .ok (.obj (Grammar.settled ms), rest) := by
  have hread := readsList_members.start (.inr rfl) member_head (member_append hvalue) hw h he hd hn rest
  rw [object, hread, ← Value.ofMembers_eq]
  rfl

end

/-! ### Values and documents -/

/-- A value is read as it is written, by induction on the levels. -/
theorem value_append (levels : Nat) (t : List Char) (v : Value) (rest : List Char)
    (h : Grammar.Within Json5.Derives maxIntegerDigits levels t v) (hrest : Stops rest) :
    Lenient.value levels (t ++ rest) = .ok (v, rest) := by
  induction levels generalizing t v rest with
  | zero =>
    obtain ⟨d, n, h, hd, hn⟩ := h
    have hn : n = 0 := Nat.le_zero.mp hn
    have hread := scalar_append h hn hd hrest
    obtain ⟨c, u, rfl, -, hc⟩ := scalar_head h hn
    exact (value_eq_scalar hc 0 _).trans hread
  | succ levels ih =>
    obtain ⟨d, n, h, hd, hn⟩ := h
    rcases Nat.eq_zero_or_pos n with hzero | hpos
    · have hread := scalar_append h hzero hd hrest
      obtain ⟨c, u, rfl, -, hc⟩ := scalar_head h hzero
      exact (value_eq_scalar hc _ _).trans hread
    · -- brackets nest in the text, so it is an array or an object, and its parts have one level less
      cases h with
      | null | true | false | str | number => cases hpos
      | emptyArr hw =>
        have hskip := skipSpace_append_cons hw (c := ']') (by decide) rest
        simp [Lenient.value, array, hskip, items, Except.map]
      | arr hw h he =>
        have hread := array_append ih hw h he hd (Nat.le_of_succ_le_succ hn) rest
        simpa [Lenient.value] using hread
      | emptyObj hw =>
        have hskip := skipSpace_append_cons hw (c := '}') (by decide) rest
        simp [Lenient.value, object, hskip, members, Except.map, Value.ofMembers]
      | obj hw h he =>
        have hread := object_append ih hw h he hd (Nat.le_of_succ_le_succ hn) rest
        simpa [Lenient.value] using hread

/-- The lenient reader follows the grammar on all texts that nest no deeper than it goes down. -/
theorem follows {levels : Nat} (hlevels : levels ≤ maxLevels) : @Json5Decoder.Follows decoder levels := by
  rintro text v ⟨d, n, h, hd, hn⟩
  cases h with
  | @mk w s w' _ _ _ hw h hw' =>
    have hread := value_append maxLevels s v w' ⟨d, n, h, hd, hn.trans hlevels⟩ (stops_final hw')
    have hskip : skipSpace (w ++ (s ++ w')) = s ++ w' := by
      obtain ⟨c, u, rfl, hc⟩ := derives_head s v d n h
      exact skipSpace_append_cons hw hc.1 _
    change decode (w ++ (s ++ w')) = .ok v
    simp only [decode, document, hskip, hread, Except.bind, skipSpace_final hw']
    rfl

end JsonShape.Lenient
