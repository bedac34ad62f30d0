import JsonShape.Proofs.Document.Decoding
import JsonShape.Proofs.Document.Lexemes
import JsonShape.Proofs.Document.RepeatedKeys

/-!
# Strict documents are those of the grammar

The strict reader accepts the documents of the grammar, and nothing else, as long as they keep to the limits
on integers and nesting. One direction follows the reader: what it takes off a text is a part by the grammar.
The other follows the grammar: a part is read as it is written, if what comes after it may come after a value.
This one holds as well when `NaN` and the infinities are values, as no other value starts like them.
Both are inductions on the levels that the reader may still go down; items and members are lists of parts,
which one lemma in each direction deals with.
-/

namespace JsonShape.Strict

variable {s rest : List Char}

/-! ### Words -/

theorem after?_eq_some_iff {word : List Char} : Scan.after? word s = some rest ↔ s = word ++ rest := by
  induction word generalizing s with
  | nil => simp [Scan.after?, eq_comm]
  | cons w word ih =>
    cases s with
    | nil => simp [Scan.after?]
    | cons c s =>
      by_cases hc : w = c
      · simp [Scan.after?, hc, ih]
      · simp [Scan.after?, hc, Ne.symm hc]

theorem word?_eq_some {words : List (String × Value)} {name : String} {v : Value}
    (h : word? words s = some (name, v, rest)) : (name, v) ∈ words ∧ s = name.toList ++ rest := by
  refine ⟨mem_of_word? h, ?_⟩
  obtain ⟨⟨name', v'⟩, -, h⟩ := List.exists_of_findSome?_eq_some h
  simp only [Option.map_eq_some_iff, Prod.mk.injEq] at h
  obtain ⟨rest', hafter, rfl, rfl, rfl⟩ := h
  exact after?_eq_some_iff.mp hafter

/-- No word starts with a digit, also behind a minus. -/
theorem word?_digit {c : Char} (hc : c.isDigit = true) :
    (word? literals (c :: s) = none ∧ word? constants (c :: s) = none) ∧
      word? literals ('-' :: c :: s) = none ∧ word? constants ('-' :: c :: s) = none := by
  have hne : ∀ x ∈ ['n', 't', 'f', 'N', 'I', '-'], x ≠ c := by
    rintro x hx rfl
    simp only [List.mem_cons, List.not_mem_nil, or_false] at hx
    rcases hx with rfl | rfl | rfl | rfl | rfl | rfl <;> cases hc
  simp only [List.forall_mem_cons] at hne
  simp [word?, literals, constants, Scan.after?, hne]

theorem scalar_eq_number {sign : List Char} {negative : Bool} (hsign : Grammar.Minus sign negative)
    {c : Char} (hc : c.isDigit = true) (named : Bool) :
    scalar named (sign ++ c :: s) = number (sign ++ c :: s) := by
  obtain ⟨⟨hliteral, hconstant⟩, hliteral', hconstant'⟩ := word?_digit (s := s) hc
  cases hsign with
  | absent =>
    rw [List.nil_append]
    unfold scalar
    split
    · next heq =>
      obtain ⟨rfl, -⟩ := List.cons.inj heq
      cases hc
    · rw [hliteral, hconstant]
  | minus =>
    rw [List.singleton_append]
    unfold scalar
    rw [hliteral', hconstant']
    rfl

/-! ### Scalars -/

/-- A text is a value by the grammar, with integers that are not too long and in no more than so many
levels. -/
abbrev Readable (levels : Nat) : List Char → Value → Prop :=
  Grammar.Within Grammar.Derives maxIntegerDigits levels

theorem takes_scalar (levels : Nat) (s : List Char) : Takes (Readable levels) s (scalar false s) := by
  unfold scalar
  split
  · next after =>
    refine .append (t := ['"']) ((takes_string after).map (f := Value.str) fun t text h => ?_)
    exact ⟨0, 0, .str h, Nat.zero_le _, Nat.zero_le _⟩
  · split
    · next name v after hword =>
      obtain ⟨hmem, rfl⟩ := word?_eq_some hword
      simp only [literals, List.mem_cons, Prod.mk.injEq, List.not_mem_nil, or_false] at hmem
      rcases hmem with ⟨rfl, rfl⟩ | ⟨rfl, rfl⟩ | ⟨rfl, rfl⟩
      · exact .ok ⟨0, 0, .null, Nat.zero_le _, Nat.zero_le _⟩
      · exact .ok ⟨0, 0, .true, Nat.zero_le _, Nat.zero_le _⟩
      · exact .ok ⟨0, 0, .false, Nat.zero_le _, Nat.zero_le _⟩
    · exact .error _
    · exact takes_number levels s

/-- A character that a value or a member starts with is neither blank nor a closing bracket. -/
def Starts (c : Char) : Prop := isSpace c = false ∧ c ≠ ']' ∧ c ≠ '}'

instance (c : Char) : Decidable (Starts c) := inferInstanceAs (Decidable (_ ∧ _))

theorem whole_head {whole : List Char} (h : Grammar.Whole whole) : ∃ c ds, whole = c :: ds ∧ c.isDigit = true := by
  rcases h with rfl | ⟨⟨hne, hdigits⟩, -⟩
  · exact ⟨'0', [], rfl, rfl⟩
  · obtain ⟨c, ds, rfl⟩ := List.exists_cons_of_ne_nil hne
    exact ⟨c, ds, rfl, hdigits c (List.mem_cons_self ..)⟩

theorem number_head {sign whole : List Char} {negative : Bool} (hsign : Grammar.Minus sign negative)
    (hwhole : Grammar.Whole whole) (s : List Char) :
    ∃ c u, sign ++ (whole ++ s) = c :: u ∧ Starts c ∧ c ≠ '{' ∧ c ≠ '[' := by
  obtain ⟨c, ds, rfl, hc⟩ := whole_head hwhole
  cases hsign with
  | absent =>
    refine ⟨c, ds ++ s, rfl, ⟨?_, ?_, ?_⟩, ?_, ?_⟩
    · cases hspace : isSpace c with
      | false => rfl
      | true => rcases isSpace_iff.mp hspace with rfl | rfl | rfl | rfl <;> cases hc
    all_goals
      rintro rfl
      cases hc
  | minus => exact ⟨'-', _, rfl, by decide⟩

/-- A text without brackets starts with none. -/
theorem scalar_head {t : List Char} {v : Value} {d n : Nat} (h : Grammar.Derives t v d n) (hn : n = 0) :
    ∃ c u, t = c :: u ∧ Starts c ∧ c ≠ '{' ∧ c ≠ '[' := by
  cases h with
  | null | true | false => exact ⟨_, _, rfl, by decide⟩
  | str h =>
    cases h
    exact ⟨_, _, rfl, by decide⟩
  | int hsign hwhole => simpa using number_head hsign hwhole []
  | decimal hsign hwhole => exact number_head hsign hwhole _
  | emptyArr | arr | emptyObj | obj => cases hn

theorem derives_head (t : List Char) (v : Value) (d n : Nat) (h : Grammar.Derives t v d n) :
    ∃ c u, t = c :: u ∧ Starts c := by
  rcases Nat.eq_zero_or_pos n with hn | hn
  · obtain ⟨c, u, rfl, hc, -⟩ := scalar_head h hn
    exact ⟨c, u, rfl, hc⟩
  · cases h with
    | null | true | false | str | int | decimal => cases hn
    | emptyArr | arr | emptyObj | obj => exact ⟨_, _, rfl, by decide⟩

theorem member_head (t : List Char) (m : String × Value) (d n : Nat) (h : Grammar.Member t m d n) :
    ∃ c u, t = c :: u ∧ Starts c := by
  cases h with
  | mk hkey =>
    cases hkey
    exact ⟨_, _, rfl, by decide⟩

/-- A value without brackets is read as it is written. -/
theorem scalar_append {t : List Char} {v : Value} {d n : Nat} (h : Grammar.Derives t v d n) (hn : n = 0)
    (hd : d ≤ maxIntegerDigits) (hrest : Stops rest) (named : Bool) :
    scalar named (t ++ rest) = .ok (v, rest) := by
  cases h with
  | null | true | false => rfl
  | str h =>
    obtain ⟨u, rfl, hu⟩ := string_append h rest
    simp only [List.cons_append, scalar, hu, Except.map]
  | @int sign whole negative hsign hwhole =>
    have hread := unsigned_int hwhole hd hrest
    obtain ⟨c, ds, rfl, hc⟩ := whole_head hwhole
    obtain ⟨left, hnumber⟩ := number_append hsign (s := c :: (ds ++ rest)) (by rintro _ ⟨⟩; exact hc)
    rw [List.append_assoc, List.cons_append, scalar_eq_number hsign hc named, hnumber]
    exact hread left negative
  | @decimal sign whole f e negative fraction exponent hsign hwhole hf he hpart =>
    have hread := unsigned_decimal hwhole hf he hpart hrest
    obtain ⟨c, ds, rfl, hc⟩ := whole_head hwhole
    obtain ⟨left, hnumber⟩ := number_append hsign (s := c :: (ds ++ (f ++ (e ++ rest))))
      (by rintro _ ⟨⟩; exact hc)
    simp only [List.append_assoc, List.cons_append] at hread ⊢
    rw [scalar_eq_number hsign hc named, hnumber]
    exact hread left negative
  | emptyArr | arr | emptyObj | obj => cases hn

/-- What starts with no opening bracket is read as a scalar, on any level. -/
theorem value_eq_scalar {c : Char} (hc : c ≠ '{' ∧ c ≠ '[') (named : Bool) (levels : Nat) (s : List Char) :
    Strict.value named levels (c :: s) = scalar named (c :: s) := by
  cases levels with
  | zero =>
    unfold Strict.value
    split
    · next heq => exact absurd (List.cons.inj heq).1 hc.1
    · next heq => exact absurd (List.cons.inj heq).1 hc.2
    · rfl
  | succ levels =>
    unfold Strict.value
    split
    · next heq => exact absurd (List.cons.inj heq).1 hc.1
    · next heq => exact absurd (List.cons.inj heq).1 hc.2
    · rfl

theorem value_of_scalar {t : List Char} {v : Value} {d n : Nat} (h : Grammar.Derives t v d n) (hn : n = 0)
    (hd : d ≤ maxIntegerDigits) (hrest : Stops rest) (named : Bool) (levels : Nat) :
    Strict.value named levels (t ++ rest) = .ok (v, rest) := by
  have hread := scalar_append h hn hd hrest named
  obtain ⟨c, u, rfl, -, hc⟩ := scalar_head h hn
  rw [List.cons_append, value_eq_scalar hc]
  exact hread

/-! ### Lists of parts -/

section

variable {α : Type} {part : List Char → Result α} {Part : List Char → α → Nat → Nat → Prop} {close : Char}
  {digits levels : Nat}

/-- The parts of a list, then blanks and the closing bracket. -/
def Closed (Parts : List Char → List α → Prop) (close : Char) (t : List Char) (as : List α) : Prop :=
  ∃ u w, t = u ++ (w ++ [close]) ∧ Parts u as ∧ Grammar.Blanks w

/-- What is read as a list of parts is one by the grammar, by induction on the turns of the loop. -/
theorem takes_listed (hpart : ∀ s, Takes (Grammar.Within Part digits levels) s (part s)) (turns : Nat)
    (s : List Char) :
    Takes (Closed (Grammar.Within (Grammar.Listed Part) digits levels) close) s
      (listed part close turns s) := by
  induction turns generalizing s with
  | zero => exact .error _
  | succ turns ih =>
    refine (hpart s).bind ?_
    rintro t a rest ⟨d, n, ha, hd, hn⟩
    obtain ⟨w, hw, hrest⟩ := exists_blanks rest
    dsimp only
    generalize skipSpace rest = after at hrest
    subst hrest
    cases after with
    | nil => exact .error _
    | cons c after =>
      dsimp only
      split
      · next hc =>
        subst hc
        rw [List.append_cons]
        exact .ok ⟨t, w, rfl, ⟨d, n, .single ha, hd, hn⟩, hw⟩
      · split
        · next hc =>
          subst hc
          obtain ⟨w', hw', hafter⟩ := exists_blanks after
          generalize skipSpace after = later at hafter ⊢
          subst hafter
          rw [List.append_cons, ← List.append_assoc]
          refine .append ((ih later).map ?_)
          rintro _ as ⟨u, x, rfl, ⟨e, m, has, he, hm⟩, hx⟩
          refine ⟨t ++ (w ++ ',' :: (w' ++ u)), x, by simp, ?_, hx⟩
          exact ⟨_, _, .cons ha hw hw' has, max_le hd he, max_le hn hm⟩
        · exact .error _

theorem stops_append {w : List Char} (hw : Grammar.Blanks w) {c : Char} (hc : c = ',' ∨ c = ']' ∨ c = '}') :
    Stops (w ++ c :: rest) := by
  cases w with
  | nil =>
    rintro _ ⟨⟩
    exact .inr hc
  | cons x w =>
    rintro _ ⟨⟩
    exact .inl (isSpace_iff.mpr (hw x (List.mem_cons_self ..)))

theorem listed_length_le {as : List α} {d n : Nat} (h : Grammar.Listed Part s as d n) :
    as.length ≤ s.length + 1 := by
  induction h with
  | single => simp
  | cons _ _ _ _ ih =>
    simp only [List.length_cons, List.length_append]
    omega

section

variable (hhead : ∀ t a d n, Part t a d n → ∃ c u, t = c :: u ∧ Starts c)
include hhead

theorem listed_head {as : List α} {d n : Nat} (h : Grammar.Listed Part s as d n) :
    ∃ c u, s = c :: u ∧ Starts c := by
  cases h with
  | single h => exact hhead _ _ _ _ h
  | cons h =>
    obtain ⟨c, u, rfl, hc⟩ := hhead _ _ _ _ h
    exact ⟨c, _, rfl, hc⟩

variable (hclose : close = ']' ∨ close = '}')
  (hpart : ∀ t a rest, Grammar.Within Part digits levels t a → Stops rest → part (t ++ rest) = .ok (a, rest))
include hclose hpart

/-- A list of parts is read up to its closing bracket, by induction on the list. -/
theorem listed_append {as : List α} {d n : Nat} (h : Grammar.Listed Part s as d n) (hd : d ≤ digits)
    (hn : n ≤ levels) {w : List Char} (hw : Grammar.Blanks w) {turns : Nat} (hturns : as.length ≤ turns) :
    listed part close turns (s ++ (w ++ close :: rest)) = .ok (as, rest) := by
  have hspace : isSpace close = false := by rcases hclose with rfl | rfl <;> rfl
  have hcomma : ',' ≠ close := by rcases hclose with rfl | rfl <;> decide
  induction h generalizing turns with
  | @single s a d n h =>
    obtain _ | turns := turns
    · cases hturns
    have hstops : Stops (w ++ close :: rest) := stops_append hw (.inr hclose)
    have hskip := skipSpace_append_cons hw hspace rest
    simp only [listed, hpart s a _ ⟨d, n, h, hd, hn⟩ hstops, Except.bind, hskip, if_true]
  | @cons s x y t a as d n e m h hx hy ht ih =>
    obtain _ | turns := turns
    · cases hturns
    have hstops : Stops (x ++ ',' :: (y ++ (t ++ (w ++ close :: rest)))) := stops_append hx (.inl rfl)
    have hskip := skipSpace_append_cons hx (c := ',') rfl (y ++ (t ++ (w ++ close :: rest)))
    have hskip' : skipSpace (y ++ (t ++ (w ++ close :: rest))) = t ++ (w ++ close :: rest) := by
      obtain ⟨c, u, rfl, hc⟩ := listed_head hhead ht
      exact skipSpace_append_cons hy hc.1 _
    have hfirst := hpart s a _ ⟨d, n, h, le_trans (le_max_left ..) hd, le_trans (le_max_left ..) hn⟩ hstops
    have hrest := ih (le_trans (le_max_right ..) hd) (le_trans (le_max_right ..) hn)
      (Nat.le_of_succ_le_succ hturns)
    simp only [List.append_assoc, List.cons_append, listed, hfirst, Except.bind, hskip, hskip', if_neg hcomma,
      if_true, hrest, Except.map]

/-- A list is read behind its opening bracket: after the blanks it goes on with a part. -/
theorem listed_start {w w' : List Char} {as : List α} {d n : Nat} (hw : Grammar.Blanks w)
    (h : Grammar.Listed Part s as d n) (hw' : Grammar.Blanks w') (hd : d ≤ digits) (hn : n ≤ levels)
    (rest : List Char) :
    ∃ c u, skipSpace (w ++ (s ++ (w' ++ close :: rest))) = c :: u ∧ Starts c ∧
      listed part close ((c :: u).length + 1) (c :: u) = .ok (as, rest) := by
  obtain ⟨c, u, rfl, hc⟩ := listed_head hhead h
  have hturns : as.length ≤ (c :: (u ++ (w' ++ close :: rest))).length + 1 := by
    have := listed_length_le h
    simp only [List.length_cons, List.length_append] at this ⊢
    omega
  exact ⟨c, u ++ (w' ++ close :: rest), skipSpace_append_cons hw hc.1 _, hc,
    listed_append hhead hclose hpart h hd hn hw' hturns⟩

end

end

/-! ### Members, arrays and objects -/

section

variable {value : List Char → Result Value} {levels : Nat}

theorem takes_memberKey (s : List Char) :
    Takes (fun t key => ∃ k w w', t = k ++ (w ++ ':' :: w') ∧ Grammar.Quoted k key ∧ Grammar.Blanks w ∧
      Grammar.Blanks w') s (memberKey s) := by
  unfold memberKey
  split
  · next after =>
    refine .append (t := ['"']) ((takes_string after).bind fun t key rest hkey => ?_)
    obtain ⟨w, hw, hrest⟩ := exists_blanks rest
    dsimp only
    generalize skipSpace rest = later at hrest ⊢
    subst hrest
    split
    · next rest =>
      obtain ⟨w', hw', hrest⟩ := exists_blanks rest
      generalize skipSpace rest = later at hrest ⊢
      subst hrest
      have htext : w ++ ':' :: (w' ++ later) = (w ++ ':' :: w') ++ later := by simp
      rw [htext]
      exact .ok ⟨'"' :: t, w, w', by simp, hkey, hw, hw'⟩
    · exact .error _
  · exact .error _

theorem memberKey_append {k w w' : List Char} {key : String} (hkey : Grammar.Quoted k key)
    (hw : Grammar.Blanks w) (hw' : Grammar.Blanks w') (hrest : ∀ c ∈ rest.head?, isSpace c = false) :
    memberKey (k ++ (w ++ ':' :: (w' ++ rest))) = .ok (key, rest) := by
  obtain ⟨u, rfl, hu⟩ := string_append hkey (w ++ ':' :: (w' ++ rest))
  have hskip := skipSpace_append_cons hw (c := ':') rfl (w' ++ rest)
  simp only [memberKey, List.cons_append, hu, Except.bind, hskip, skipSpace_append hw' hrest]

section

variable (hvalue : ∀ s, Takes (Readable levels) s (value s))
include hvalue

theorem takes_member (s : List Char) :
    Takes (Grammar.Within Grammar.Member maxIntegerDigits levels) s (member value s) := by
  refine (takes_memberKey s).bind ?_
  rintro _ key rest ⟨k, w, w', rfl, hkey, hw, hw'⟩
  refine (hvalue rest).map fun t v hv => ?_
  obtain ⟨d, n, hv, hd, hn⟩ := hv
  have htext : k ++ (w ++ ':' :: w') ++ t = k ++ (w ++ ':' :: (w' ++ t)) := by simp
  rw [htext]
  exact ⟨d, n, .mk hkey hw hw' hv, hd, hn⟩

theorem takes_array (s : List Char) :
    Takes (fun t => Readable (levels + 1) ('[' :: t)) s (array value s) := by
  obtain ⟨w, hw, hs⟩ := exists_blanks s
  unfold array
  generalize skipSpace s = later at hs ⊢
  subst hs
  split
  · next rest =>
    rw [List.append_cons]
    exact .ok ⟨0, 1, .emptyArr hw, Nat.zero_le _, Nat.succ_le_succ (Nat.zero_le _)⟩
  · refine .append ((takes_listed hvalue _ _).map ?_)
    rintro _ vs ⟨t, w', rfl, ⟨d, n, hvs, hd, hn⟩, hw'⟩
    exact ⟨d, n + 1, .arr hw hvs hw', hd, Nat.succ_le_succ hn⟩

theorem takes_object (s : List Char) :
    Takes (fun t => Readable (levels + 1) ('{' :: t)) s (object value s) := by
  obtain ⟨w, hw, hs⟩ := exists_blanks s
  unfold object
  generalize skipSpace s = later at hs ⊢
  subst hs
  split
  · next rest =>
    rw [List.append_cons]
    exact .ok ⟨0, 1, .emptyObj hw, Nat.zero_le _, Nat.succ_le_succ (Nat.zero_le _)⟩
  · refine .append ((takes_listed (takes_member hvalue) _ _).map
      (f := fun ms => Value.ofMembers (ms.map fun m => (.text m.1, m.2))) ?_)
    rintro _ ms ⟨t, w', rfl, ⟨d, n, hms, hd, hn⟩, hw'⟩
    rw [Value.ofMembers_eq]
    exact ⟨d, n + 1, .obj hw hms hw', hd, Nat.succ_le_succ hn⟩

end

section

variable (hvalue : ∀ t v rest, Readable levels t v → Stops rest → value (t ++ rest) = .ok (v, rest))
include hvalue

theorem array_append {w s w' : List Char} {vs : List Value} {d n : Nat} (hw : Grammar.Blanks w)
    (h : Grammar.Listed Grammar.Derives s vs d n) (hw' : Grammar.Blanks w') (hd : d ≤ maxIntegerDigits)
    (hn : n ≤ levels) (rest : List Char) :
    array value (w ++ (s ++ (w' ++ ']' :: rest))) = .ok (.arr vs, rest) := by
  obtain ⟨c, u, hskip, hc, hread⟩ := listed_start derives_head (.inl rfl) hvalue hw h hw' hd hn rest
  unfold array
  rw [hskip]
  split
  · next heq => exact absurd (List.cons.inj heq).1 hc.2.1
  · rw [hread]
    rfl

theorem member_append (t : List Char) (m : String × Value) (rest : List Char)
    (h : Grammar.Within Grammar.Member maxIntegerDigits levels t m) (hrest : Stops rest) :
    member value (t ++ rest) = .ok (m, rest) := by
  obtain ⟨d, n, h, hd, hn⟩ := h
  cases h with
  | @mk k w w' s key v _ _ hkey hw hw' hv =>
    have hhead : ∀ c ∈ (s ++ rest).head?, isSpace c = false := by
      obtain ⟨c, u, rfl, hc⟩ := derives_head s v d n hv
      rintro _ ⟨⟩
      exact hc.1
    have hkeyread := memberKey_append hkey hw hw' hhead
    simp only [List.append_assoc, List.cons_append, member, hkeyread, Except.bind,
      hvalue s v rest ⟨d, n, hv, hd, hn⟩ hrest, Except.map]

theorem object_append {w s w' : List Char} {ms : List (String × Value)} {d n : Nat} (hw : Grammar.Blanks w)
    (h : Grammar.Listed Grammar.Member s ms d n) (hw' : Grammar.Blanks w') (hd : d ≤ maxIntegerDigits)
    (hn : n ≤ levels) (rest : List Char) :
    object value (w ++ (s ++ (w' ++ '}' :: rest))) = .ok (.obj (Grammar.settled ms), rest) := by
  obtain ⟨c, u, hskip, hc, hread⟩ :=
    listed_start member_head (.inr rfl) (member_append hvalue) hw h hw' hd hn rest
  unfold object
  rw [hskip]
  split
  · next heq => exact absurd (List.cons.inj heq).1 hc.2.2
  · rw [hread, ← Value.ofMembers_eq]
    rfl

end

end

/-! ### Values -/

/-- What is read as a value is one by the grammar, by induction on the levels. -/
theorem takes_value (levels : Nat) (s : List Char) : Takes (Readable levels) s (Strict.value false levels s) := by
  induction levels generalizing s with
  | zero =>
    unfold Strict.value
    split
    · exact .error _
    · exact .error _
    · exact takes_scalar 0 s
  | succ levels ih =>
    unfold Strict.value
    split
    · next rest => exact .append (t := ['{']) (takes_object ih rest)
    · next rest => exact .append (t := ['[']) (takes_array ih rest)
    · exact takes_scalar (levels + 1) s

/-- A value is read as it is written, by induction on the levels. -/
theorem value_append (named : Bool) (levels : Nat) (t : List Char) (v : Value) (rest : List Char)
    (h : Readable levels t v) (hrest : Stops rest) :
    Strict.value named levels (t ++ rest) = .ok (v, rest) := by
  induction levels generalizing t v rest with
  | zero =>
    obtain ⟨d, n, h, hd, hn⟩ := h
    exact value_of_scalar h (Nat.le_zero.mp hn) hd hrest named 0
  | succ levels ih =>
    obtain ⟨d, n, h, hd, hn⟩ := h
    rcases Nat.eq_zero_or_pos n with hzero | hpos
    · exact value_of_scalar h hzero hd hrest named _
    -- brackets nest in the text, so it is an array or an object, and its parts have one level less
    · cases h with
      | null | true | false | str | int | decimal => cases hpos
      | emptyArr hw =>
        have hskip := skipSpace_append_cons hw (c := ']') rfl rest
        simp [Strict.value, array, hskip]
      | arr hw h hw' =>
        have hread := array_append ih hw h hw' hd (Nat.le_of_succ_le_succ hn) rest
        simpa [Strict.value] using hread
      | emptyObj hw =>
        have hskip := skipSpace_append_cons hw (c := '}') rfl rest
        simp [Strict.value, object, hskip]
      | obj hw h hw' =>
        have hread := object_append ih hw h hw' hd (Nat.le_of_succ_le_succ hn) rest
        simpa [Strict.value] using hread

/-! ### Documents -/

theorem stops_blanks {w : List Char} (hw : Grammar.Blanks w) : Stops w :=
  fun c hc => .inl (isSpace_iff.mpr (hw c (List.mem_of_mem_head? hc)))

theorem document_of_within {text : List Char} {v : Value}
    (h : Grammar.Within Grammar.Document maxIntegerDigits maxLevels text v) (named : Bool) :
    document named text = .ok v := by
  obtain ⟨d, n, h, hd, hn⟩ := h
  cases h with
  | @mk w s w' _ _ _ hw hv hw' =>
    have hread := value_append named maxLevels s v w' ⟨d, n, hv, hd, hn⟩ (stops_blanks hw')
    have hskip : skipSpace (w ++ (s ++ w')) = s ++ w' := by
      obtain ⟨c, u, rfl, hc⟩ := derives_head s v d n hv
      exact skipSpace_append_cons hw hc.1 _
    have hend : skipSpace w' = [] := by
      have := skipSpace_append (s := []) hw' (fun _ hc => nomatch hc)
      rwa [List.append_nil] at this
    simp only [document, hskip, hread, Except.bind, hend]

theorem document_eq_ok_iff {text : List Char} {v : Value} :
    document false text = .ok v ↔ Grammar.Within Grammar.Document maxIntegerDigits maxLevels text v := by
  refine ⟨fun h => ?_, fun h => document_of_within h false⟩
  obtain ⟨w, hw, htext⟩ := exists_blanks text
  unfold document at h
  cases hread : Strict.value false maxLevels (skipSpace text) with
  | error e =>
    rw [hread] at h
    cases h
  | ok p =>
    obtain ⟨v', rest⟩ := p
    obtain ⟨t, ht, d, n, hv, hd, hn⟩ := takes_value maxLevels _ v' rest hread
    obtain ⟨w', hw', hrest⟩ := exists_blanks rest
    rw [hread] at h
    simp only [Except.bind] at h
    split at h
    · next hend =>
      cases h
      rw [hend, List.append_nil] at hrest
      subst hrest
      rw [htext, ht]
      exact ⟨d, n, .mk hw hv hw', hd, hn⟩
    · cases h

/-- A document by the grammar is decoded as what it stands for, also where `NaN` and the infinities are
values. -/
theorem decode_of_within {text : List Char} {v : Value}
    (h : Grammar.Within Grammar.Document maxIntegerDigits maxLevels text v) (named : Bool) :
    decode named text = .ok v := by
  rw [decode, document_of_within h named]
  rfl

/-- A text is decoded as a value just when it is a document by the grammar, with integers that are not too
long and no more levels than the reader goes down. -/
theorem decode_eq_ok_iff {text : List Char} {v : Value} :
    decode false text = .ok v ↔ Grammar.Within Grammar.Document maxIntegerDigits maxLevels text v := by
  rw [← document_eq_ok_iff, decode]
  cases document false text <;> simp [Except.mapError]

end JsonShape.Strict
