import JsonShape.Document.Strict
import JsonShape.Proofs.Document.Grammar
import Mathlib.Data.List.Induction
import Mathlib.Data.List.TakeWhile
import Mathlib.Tactic.IntervalCases

/-!
# Reading the lexemes of a document

The strict reader and the grammar agree on blanks, numbers and strings. For each part there are two facts:
what is taken off a text is that part by the grammar, and a part by the grammar is read off a text that goes
on with something else. A number needs to know that what follows does not go on with it; all that may follow
a value in a document is of that kind.
-/

namespace JsonShape.Strict

/-! ### Parts that are taken off a text -/

/-- If a part is read, the text starts with it, and the part is what a relation says. -/
def Takes {α : Type} (P : List Char → α → Prop) (s : List Char) (r : Result α) : Prop :=
  ∀ a rest, r = .ok (a, rest) → ∃ t, s = t ++ rest ∧ P t a

namespace Takes

variable {α β : Type} {P : List Char → α → Prop} {Q : List Char → β → Prop} {s t rest : List Char}
  {r : Result α}

theorem ok {a : α} (h : P t a) : Takes P (t ++ rest) (.ok (a, rest)) := by
  rintro _ _ ⟨⟩
  exact ⟨t, rfl, h⟩

theorem error (e : Failure) : Takes P s (.error e) := by
  rintro _ _ ⟨⟩

theorem mono {P' : List Char → α → Prop} (hr : Takes P s r) (h : ∀ t a, P t a → P' t a) : Takes P' s r := by
  intro a rest hok
  obtain ⟨t, hs, ht⟩ := hr a rest hok
  exact ⟨t, hs, h t a ht⟩

theorem bind {f : α × List Char → Result β} (hr : Takes P s r)
    (hf : ∀ t a rest, P t a → Takes (fun u b => Q (t ++ u) b) rest (f (a, rest))) : Takes Q s (r.bind f) := by
  cases r with
  | error e => exact error e
  | ok p =>
    obtain ⟨t, rfl, ht⟩ := hr p.1 p.2 rfl
    intro b rest hb
    obtain ⟨u, hu, hQ⟩ := hf t p.1 p.2 ht b rest hb
    exact ⟨t ++ u, by rw [hu, List.append_assoc], hQ⟩

theorem map {f : α → β} (hr : Takes P s r) (hf : ∀ t a, P t a → Q t (f a)) :
    Takes Q s (r.map fun (a, rest) => (f a, rest)) := by
  cases r with
  | error e => exact error e
  | ok p =>
    obtain ⟨t, rfl, ht⟩ := hr p.1 p.2 rfl
    exact ok (hf t p.1 ht)

/-- What is read behind some characters is taken off the text together with them. -/
theorem append (h : Takes (fun u a => P (t ++ u) a) s r) : Takes P (t ++ s) r := by
  intro a rest hok
  obtain ⟨u, rfl, hu⟩ := h a rest hok
  exact ⟨t ++ u, by rw [List.append_assoc], hu⟩

end Takes

/-! ### Characters up to another -/

section

variable {p : Char → Bool} {t rest : List Char}

theorem takeWhile_append (ht : ∀ c ∈ t, p c = true) (hrest : ∀ c ∈ rest.head?, p c = false) :
    (t ++ rest).takeWhile p = t := by
  rw [List.takeWhile_append_of_pos ht]
  cases rest with
  | nil => simp
  | cons c rest => simp [hrest c rfl]

theorem dropWhile_append (ht : ∀ c ∈ t, p c = true) (hrest : ∀ c ∈ rest.head?, p c = false) :
    (t ++ rest).dropWhile p = rest := by
  rw [List.dropWhile_append_of_pos ht]
  cases rest with
  | nil => rfl
  | cons c rest => simp [hrest c rfl]

end

/-! ### Blanks -/

theorem isSpace_iff {c : Char} : isSpace c = true ↔ c = ' ' ∨ c = '\t' ∨ c = '\n' ∨ c = '\r' := by
  simp [isSpace, or_assoc]

theorem exists_blanks (s : List Char) : ∃ w, Grammar.Blanks w ∧ s = w ++ skipSpace s :=
  ⟨s.takeWhile isSpace, fun _ hc => isSpace_iff.mp (List.mem_takeWhile_imp hc),
    List.takeWhile_append_dropWhile.symm⟩

/-- Blanks are skipped up to the first other character. -/
theorem skipSpace_append {w s : List Char} (hw : Grammar.Blanks w) (hs : ∀ c ∈ s.head?, isSpace c = false) :
    skipSpace (w ++ s) = s := dropWhile_append (fun c hc => isSpace_iff.mpr (hw c hc)) hs

theorem skipSpace_append_cons {w : List Char} (hw : Grammar.Blanks w) {c : Char} (hc : isSpace c = false)
    (s : List Char) : skipSpace (w ++ c :: s) = c :: s := by
  refine skipSpace_append hw ?_
  rintro _ ⟨⟩
  exact hc

/-! ### Digits -/

theorem digitsValue_append (digits : List Char) (c : Char) :
    Decimal.digitsValue 0 (digits ++ [c]) = Decimal.digitsValue 0 digits * 10 + (c.toNat - '0'.toNat) := by
  simp [Decimal.digitsValue]

theorem digitsValue_eq (digits : List Char) : Decimal.digitsValue 0 digits = Grammar.natOf digits := by
  induction digits using List.reverseRecOn with
  | nil => rfl
  | append_singleton digits c ih =>
    rw [digitsValue_append, ih]
    simp only [Grammar.natOf, List.reverse_append, List.reverse_singleton, List.singleton_append,
      List.map_cons, Nat.ofDigits_cons]
    omega

theorem signed_eq (negative : Bool) (digits : List Char) :
    Scan.signed negative digits = Grammar.signed negative (Grammar.natOf digits) := by
  rw [Scan.signed, digitsValue_eq, Grammar.signed]

theorem ofParts_eq (negative : Bool) (whole fraction : List Char) (exponent : Int) :
    Decimal.ofParts negative whole fraction exponent = Grammar.decimal negative whole fraction exponent := by
  rw [Decimal.ofParts, digitsValue_eq, Grammar.decimal]

variable {s rest digits : List Char}

theorem digits_takeWhile (h : s.takeWhile Char.isDigit ≠ []) : Grammar.Digits (s.takeWhile Char.isDigit) :=
  ⟨h, fun _ hc => List.mem_takeWhile_imp hc⟩

/-! ### The parts of a number -/

theorem whole_of_whole? (h : whole? s = some (digits, rest)) : Grammar.Whole digits ∧ s = digits ++ rest := by
  unfold whole? at h
  split at h
  · cases h
  · next c s =>
    split at h
    · next hc =>
      obtain ⟨rfl, rfl⟩ := Prod.mk.inj (Option.some.inj h)
      exact ⟨.inl rfl, by rw [hc]; rfl⟩
    · next hzero =>
      split at h
      · next hc =>
        obtain ⟨rfl, rfl⟩ := Prod.mk.inj (Option.some.inj h)
        have hdigits : Grammar.Digits (c :: s.takeWhile Char.isDigit) := by
          refine ⟨List.cons_ne_nil _ _, fun x hx => ?_⟩
          rcases List.mem_cons.mp hx with rfl | hx
          · exact hc
          · exact List.mem_takeWhile_imp hx
        refine ⟨.inr ⟨hdigits, by simpa using hzero⟩, ?_⟩
        rw [List.cons_append, List.takeWhile_append_dropWhile]
      · cases h

theorem whole?_append (h : Grammar.Whole digits) (hrest : ∀ c ∈ rest.head?, c.isDigit = false) :
    whole? (digits ++ rest) = some (digits, rest) := by
  rcases h with rfl | ⟨hdigits, hzero⟩
  · rfl
  · have htake := takeWhile_append hdigits.2 hrest
    have hdrop := dropWhile_append hdigits.2 hrest
    cases digits with
    | nil => exact absurd rfl hdigits.1
    | cons c ds =>
      have hc : c.isDigit = true := hdigits.2 c (List.mem_cons_self ..)
      have hc0 : c ≠ '0' := by simpa using hzero
      simp only [List.cons_append, List.takeWhile_cons_of_pos hc, List.dropWhile_cons_of_pos hc,
        List.cons.injEq, true_and] at htake hdrop
      simp only [whole?, List.cons_append, if_neg hc0, if_pos hc, htake, hdrop]

theorem fraction_sound (s : List Char) :
    ∃ f, Grammar.Fraction f (fraction s).1 ∧ s = f ++ (fraction s).2 := by
  unfold fraction
  split
  · next rest =>
    split
    · exact ⟨[], .absent, rfl⟩
    · next hdigits =>
      refine ⟨'.' :: rest.takeWhile Char.isDigit, .point (digits_takeWhile hdigits), ?_⟩
      rw [List.cons_append, List.takeWhile_append_dropWhile]
  · exact ⟨[], .absent, rfl⟩

theorem fraction_append {f : List Char} {digits : Option (List Char)} (h : Grammar.Fraction f digits)
    (hrest : ∀ c ∈ rest.head?, c.isDigit = false ∧ c ≠ '.') : fraction (f ++ rest) = (digits, rest) := by
  have hdigit : ∀ c ∈ rest.head?, c.isDigit = false := fun c hc => (hrest c hc).1
  cases h with
  | absent =>
    rw [List.nil_append]
    unfold fraction
    split
    · exact absurd rfl (hrest '.' rfl).2
    · rfl
  | point hdigits =>
    have htake := takeWhile_append hdigits.2 hdigit
    have hdrop := dropWhile_append hdigits.2 hdigit
    obtain ⟨c, ds, rfl⟩ := List.exists_cons_of_ne_nil hdigits.1
    simp only [List.cons_append, fraction] at htake hdrop ⊢
    rw [htake, hdrop]

theorem sign_sound (s : List Char) : ∃ t, Grammar.Sign t (Scan.sign s).1 ∧ s = t ++ (Scan.sign s).2 := by
  unfold Scan.sign
  split
  · exact ⟨['-'], .minus, rfl⟩
  · exact ⟨['+'], .plus, rfl⟩
  · exact ⟨[], .absent, rfl⟩

theorem sign_append {t : List Char} {negative : Bool} (h : Grammar.Sign t negative)
    (hrest : ∀ c ∈ rest.head?, c ≠ '-' ∧ c ≠ '+') : Scan.sign (t ++ rest) = (negative, rest) := by
  cases h with
  | absent =>
    rw [List.nil_append]
    unfold Scan.sign
    split
    · exact absurd rfl (hrest '-' rfl).1
    · exact absurd rfl (hrest '+' rfl).2
    · rfl
  | plus => rfl
  | minus => rfl

theorem exponent_sound (s : List Char) :
    ∃ e, Grammar.Exponent e (exponent s).1 ∧ s = e ++ (exponent s).2 := by
  unfold exponent
  split
  · exact ⟨[], .absent, rfl⟩
  · next c rest =>
    split
    · next hc =>
      obtain ⟨t, hsign, hrest⟩ := sign_sound rest
      generalize Scan.sign rest = p at hsign hrest
      obtain ⟨negative, after⟩ := p
      dsimp only at hsign hrest ⊢
      split
      · exact ⟨[], .absent, rfl⟩
      · next hdigits =>
        refine ⟨c :: (t ++ after.takeWhile Char.isDigit), ?_, ?_⟩
        · rw [signed_eq]
          exact .marked (by simpa using hc) hsign (digits_takeWhile hdigits)
        · rw [hrest, List.cons_append, List.append_assoc, List.takeWhile_append_dropWhile]
    · exact ⟨[], .absent, rfl⟩

theorem exponent_append {e : List Char} {x : Option Int} (h : Grammar.Exponent e x)
    (hrest : ∀ c ∈ rest.head?, c.isDigit = false ∧ c ≠ 'e' ∧ c ≠ 'E') : exponent (e ++ rest) = (x, rest) := by
  have hdigit : ∀ c ∈ rest.head?, c.isDigit = false := fun c hc => (hrest c hc).1
  cases h with
  | absent =>
    rw [List.nil_append]
    unfold exponent
    split
    · rfl
    · next c rest =>
      have hc := (hrest c rfl).2
      rw [if_neg (by simpa using hc)]
  | @marked c t digits negative hc hsign hdigits =>
    have htake := takeWhile_append hdigits.2 hdigit
    have hdrop := dropWhile_append hdigits.2 hdigit
    obtain ⟨d, ds, rfl⟩ := List.exists_cons_of_ne_nil hdigits.1
    have hd : d.isDigit = true := hdigits.2 d (List.mem_cons_self ..)
    have hsigned : Scan.sign (t ++ (d :: ds ++ rest)) = (negative, d :: ds ++ rest) := by
      refine sign_append hsign fun x hx => ?_
      obtain rfl : d = x := Option.some.inj hx
      constructor <;> rintro rfl <;> cases hd
    rw [List.cons_append, List.append_assoc, exponent, if_pos (by simpa using hc), hsigned]
    simp only [List.cons_append] at htake hdrop ⊢
    rw [htake, hdrop, ← signed_eq]

/-! ### Numbers -/

/-- What may follow a value in a document: its end, a blank, a comma or a closing bracket. -/
def Stops (rest : List Char) : Prop := ∀ c ∈ rest.head?, isSpace c = true ∨ c = ',' ∨ c = ']' ∨ c = '}'

theorem Stops.ends_number (h : Stops rest) :
    ∀ c ∈ rest.head?, c.isDigit = false ∧ c ≠ '.' ∧ c ≠ 'e' ∧ c ≠ 'E' := by
  intro c hc
  have hcases := h c hc
  rw [isSpace_iff] at hcases
  rcases hcases with (rfl | rfl | rfl | rfl) | rfl | rfl | rfl <;> decide

theorem takes_unsigned {sign : List Char} {negative : Bool} (hsign : Grammar.Minus sign negative)
    (levels left : Nat) (s : List Char) :
    Takes (Grammar.Within Grammar.Derives maxIntegerDigits levels) (sign ++ s) (unsigned left negative s) := by
  unfold unsigned
  split
  · exact .error _
  · next whole after hwhole =>
    obtain ⟨hdigits, rfl⟩ := whole_of_whole? hwhole
    obtain ⟨f, hf, hfraction⟩ := fraction_sound after
    generalize fraction after = p at hf hfraction ⊢
    obtain ⟨digits, after'⟩ := p
    obtain ⟨e, he, hexponent⟩ := exponent_sound after'
    dsimp only at hf hfraction ⊢
    generalize exponent after' = q at he hexponent ⊢
    obtain ⟨x, rest⟩ := q
    dsimp only at he hexponent ⊢
    -- with the sign, the parts that have been taken off one after the other are what is taken off
    have htext : sign ++ (whole ++ after) = (sign ++ (whole ++ (f ++ e))) ++ rest := by
      simp only [hfraction, hexponent, List.append_assoc]
    rw [htext]
    split
    · cases hf
      cases he
      split
      · exact .error _
      · next hcount =>
        rw [signed_eq, List.append_nil, List.append_nil]
        exact .ok ⟨_, _, .int hsign hdigits, Nat.le_of_not_lt hcount, Nat.zero_le _⟩
    · next hsome =>
      have hpart : digits ≠ none ∨ x ≠ none := not_and_or.mp fun h => hsome h.1 h.2
      rw [ofParts_eq]
      exact .ok ⟨_, _, .decimal hsign hdigits hf he hpart, Nat.zero_le _, Nat.zero_le _⟩

theorem takes_number (levels : Nat) (s : List Char) :
    Takes (Grammar.Within Grammar.Derives maxIntegerDigits levels) s (number s) := by
  unfold number
  split
  · exact takes_unsigned .minus levels _ _
  · exact takes_unsigned .absent levels _ _

section

variable {whole f e : List Char} {fr : Option (List Char)} {x : Option Int}

theorem Stops.before_exponent (hrest : Stops rest) (he : Grammar.Exponent e x) :
    ∀ c ∈ (e ++ rest).head?, c.isDigit = false ∧ c ≠ '.' := by
  have hends := hrest.ends_number
  cases he with
  | absent => exact fun c hc => ⟨(hends c hc).1, (hends c hc).2.1⟩
  | marked hc =>
    rintro _ ⟨⟩
    rcases hc with rfl | rfl <;> decide

theorem Stops.before_fraction (hrest : Stops rest) (hf : Grammar.Fraction f fr) (he : Grammar.Exponent e x) :
    ∀ c ∈ (f ++ (e ++ rest)).head?, c.isDigit = false := by
  cases hf with
  | absent => exact fun c hc => (hrest.before_exponent he c hc).1
  | point =>
    rintro _ ⟨⟩
    rfl

/-- Each part of a number is read as it is written, if nothing follows that would go on with it. -/
theorem parts_append (hwhole : Grammar.Whole whole) (hf : Grammar.Fraction f fr) (he : Grammar.Exponent e x)
    (hrest : Stops rest) :
    whole? (whole ++ (f ++ (e ++ rest))) = some (whole, f ++ (e ++ rest)) ∧
      fraction (f ++ (e ++ rest)) = (fr, e ++ rest) ∧ exponent (e ++ rest) = (x, rest) := by
  have hends := hrest.ends_number
  exact ⟨whole?_append hwhole (hrest.before_fraction hf he), fraction_append hf (hrest.before_exponent he),
    exponent_append he fun c hc => ⟨(hends c hc).1, (hends c hc).2.2⟩⟩

theorem unsigned_int (hwhole : Grammar.Whole whole) (hcount : whole.length ≤ maxIntegerDigits)
    (hrest : Stops rest) (left : Nat) (negative : Bool) :
    unsigned left negative (whole ++ rest) =
      .ok (.int (Grammar.signed negative (Grammar.natOf whole)), rest) := by
  obtain ⟨h, h', h''⟩ := parts_append hwhole .absent .absent hrest
  rw [List.nil_append, List.nil_append] at h h'
  rw [List.nil_append] at h''
  simp only [unsigned, h, h', h'', if_neg (Nat.not_lt.mpr hcount), signed_eq]

theorem unsigned_decimal (hwhole : Grammar.Whole whole) (hf : Grammar.Fraction f fr)
    (he : Grammar.Exponent e x) (hpart : fr ≠ none ∨ x ≠ none) (hrest : Stops rest) (left : Nat)
    (negative : Bool) :
    unsigned left negative (whole ++ (f ++ (e ++ rest))) =
      .ok (.float (Grammar.decimal negative whole (fr.getD []) (x.getD 0)), rest) := by
  obtain ⟨h, h', h''⟩ := parts_append hwhole hf he hrest
  simp only [unsigned, h, h', h'', ofParts_eq]
  split
  · exact absurd hpart (by simp)
  · rfl

theorem number_append {sign s : List Char} {negative : Bool} (hsign : Grammar.Minus sign negative)
    (hs : ∀ c ∈ s.head?, c.isDigit = true) : ∃ left, number (sign ++ s) = unsigned left negative s := by
  cases hsign with
  | absent =>
    rw [List.nil_append]
    unfold number
    split
    · cases hs '-' rfl
    · exact ⟨_, rfl⟩
  | minus => exact ⟨_, rfl⟩

end

/-! ### Strings -/

theorem escaped?_eq_some_iff {e c : Char} : escaped? e = some c ↔ (e, c) ∈ Grammar.escapes := by
  constructor
  · intro h
    unfold escaped? at h
    split at h <;> cases h <;> decide
  · intro h
    simp only [Grammar.escapes, List.mem_cons, Prod.mk.injEq, List.not_mem_nil, or_false] at h
    rcases h with ⟨rfl, rfl⟩ | ⟨rfl, rfl⟩ | ⟨rfl, rfl⟩ | ⟨rfl, rfl⟩ | ⟨rfl, rfl⟩ | ⟨rfl, rfl⟩ | ⟨rfl, rfl⟩ |
      ⟨rfl, rfl⟩ <;> rfl

theorem hexDigit_lt {c : Char} {d : Nat} (h : Grammar.HexDigit c d) : d < 16 := by
  rcases h with h | h <;> exact (List.getElem?_eq_some_iff.mp h).1

/-- A character of a range that hexadecimal digits fill. -/
theorem hexDigit_of_between {low high c : Char} {b : Nat} (hc : (low ≤ c && c ≤ high) = true)
    (hdigits : ∀ d ≤ high.toNat - low.toNat, Grammar.HexDigit (Char.ofNat (low.toNat + d)) (d + b)) :
    Grammar.HexDigit c (c.toNat - low.toNat + b) := by
  simp only [Bool.and_eq_true, decide_eq_true_eq, Char.le_def, UInt32.le_iff_toNat_le] at hc
  have hlow : low.toNat ≤ c.toNat := hc.1
  have hhigh : c.toNat ≤ high.toNat := hc.2
  have h := hdigits (c.toNat - low.toNat) (Nat.sub_le_sub_right hhigh _)
  rwa [Nat.add_sub_cancel' hlow, Char.ofNat_toNat] at h

theorem hexValue?_eq_some_iff {c : Char} {d : Nat} : Text.hexValue? c = some d ↔ Grammar.HexDigit c d := by
  constructor
  · intro h
    unfold Text.hexValue? at h
    split at h
    · next hc =>
      obtain rfl := Option.some.inj h
      exact hexDigit_of_between (b := 0) hc (by decide)
    · split at h
      · next hc =>
        obtain rfl := Option.some.inj h
        exact hexDigit_of_between hc (by decide)
      · split at h
        · next hc =>
          obtain rfl := Option.some.inj h
          exact hexDigit_of_between hc (by decide)
        · cases h
  · intro h
    have hd := hexDigit_lt h
    interval_cases d <;> rcases h with h | h <;> cases h <;> rfl

theorem hexNumber?_eq_some_iff {h₁ h₂ h₃ h₄ : Char} {u : Nat} :
    Text.hexNumber? [h₁, h₂, h₃, h₄] = some u ↔ ∃ d₁ d₂ d₃ d₄, Grammar.HexDigit h₁ d₁ ∧
      Grammar.HexDigit h₂ d₂ ∧ Grammar.HexDigit h₃ d₃ ∧ Grammar.HexDigit h₄ d₄ ∧
      ((d₁ * 16 + d₂) * 16 + d₃) * 16 + d₄ = u := by
  simp [Text.hexNumber?, Option.map_eq_some_iff, Option.bind_eq_some_iff, hexValue?_eq_some_iff]

/-- The code units of a string, of which only the opening quote is not there. -/
def ClosedUnits (t : List Char) (us : List Nat) : Prop := ∃ body, t = body ++ ['"'] ∧ Grammar.Units body us

theorem Takes.prepend {t : List Char} {u : Nat} {r : Result (List Nat)} (h : Takes ClosedUnits s r)
    (hu : ∀ body us, Grammar.Units body us → Grammar.Units (t ++ body) (u :: us)) :
    Takes ClosedUnits (t ++ s) (prepend u r) := by
  refine .append (h.map fun t' us hus => ?_)
  obtain ⟨body, rfl, hbody⟩ := hus
  exact ⟨t ++ body, (List.append_assoc ..).symm, hu body us hbody⟩

theorem takes_readUnits (opening : Nat) (s : List Char) : Takes ClosedUnits s (readUnits opening s) := by
  fun_induction readUnits opening s with
  | case2 rest => exact .ok (t := ['"']) ⟨[], rfl, .nil⟩
  | case5 h₁ h₂ h₃ h₄ rest u hhex _ _ ih =>
    obtain ⟨d₁, d₂, d₃, d₄, hd₁, hd₂, hd₃, hd₄, rfl⟩ := hexNumber?_eq_some_iff.mp hhex
    exact .prepend (t := ['\\', 'u', h₁, h₂, h₃, h₄]) ih fun _ _ h => .unicode hd₁ hd₂ hd₃ hd₄ h
  | case8 e rest _ c hc _ ih =>
    exact .prepend (t := ['\\', e]) ih fun _ _ h => .escape (escaped?_eq_some_iff.mp hc) h
  | case11 c rest hquote hslash hcontrol ih =>
    exact .prepend (t := [c]) ih fun _ _ h => .plain hquote hslash (Nat.le_of_not_lt hcontrol) h
  | case1 | case3 | case4 | case6 | case7 | case9 | case10 => exact .error _

theorem readUnits_append {body : List Char} {us : List Nat} (h : Grammar.Units body us) (opening : Nat)
    (rest : List Char) : readUnits opening (body ++ '"' :: rest) = .ok (us, rest) := by
  induction h with
  | nil =>
    rw [List.nil_append, readUnits.eq_def]
    rfl
  | plain hquote hslash hcontrol _ ih =>
    rw [List.cons_append, readUnits.eq_def]
    simp only [if_neg hquote, if_neg hslash, if_neg (Nat.not_lt.mpr hcontrol), ih]
    rfl
  | @escape e c s us hc _ ih =>
    have he : escaped? e = some c := escaped?_eq_some_iff.mpr hc
    have hu : e ≠ 'u' := by
      rintro rfl
      cases he
    rw [List.cons_append, List.cons_append, readUnits.eq_def]
    simp only [Char.reduceEq, if_false, if_true, if_neg hu, he, ih]
    rfl
  | @unicode h₁ h₂ h₃ h₄ d₁ d₂ d₃ d₄ s us hd₁ hd₂ hd₃ hd₄ _ ih =>
    have hhex := hexNumber?_eq_some_iff.mpr ⟨_, _, _, _, hd₁, hd₂, hd₃, hd₄, rfl⟩
    -- the closing quote is still to come
    have hrest : (s ++ '"' :: rest).isEmpty = false := by simp
    simp only [List.cons_append]
    rw [readUnits.eq_def]
    simp only [Char.reduceEq, if_false, if_true, hhex, hrest, Bool.false_eq_true, ih]
    rfl

/-! ### Code units and characters -/

theorem isHighSurrogate_iff {u : Nat} : Text.isHighSurrogate u = true ↔ Grammar.High u := by
  simp [Text.isHighSurrogate, Grammar.High]

theorem isLowSurrogate_iff {u : Nat} : Text.isLowSurrogate u = true ↔ Grammar.Low u := by
  simp [Text.isLowSurrogate, Grammar.Low]

theorem toNat_ofNat {n : Nat} (h : n < 0xD800 ∨ 0xDFFF < n ∧ n < 0x110000) : (Char.ofNat n).toNat = n := by
  rw [Char.ofNat, dif_pos h]
  rfl

theorem toNat_lt (c : Char) : c.toNat < 0x110000 := by
  have h : c.toNat < 0xD800 ∨ 0xDFFF < c.toNat ∧ c.toNat < 0x110000 := c.valid
  omega

/-- No character is half of a surrogate pair. -/
theorem not_surrogate_toNat (c : Char) : ¬Grammar.High c.toNat ∧ ¬Grammar.Low c.toNat := by
  have h : c.toNat < 0xD800 ∨ 0xDFFF < c.toNat ∧ c.toNat < 0x110000 := c.valid
  unfold Grammar.High Grammar.Low
  omega

theorem unitChar_of_surrogate {u : Nat} (h : Grammar.High u ∨ Grammar.Low u) :
    (Text.unitChar u).toNat = 0x10F800 + (u - 0xD800) := by
  have hu : (Text.isHighSurrogate u || Text.isLowSurrogate u) = true := by
    rwa [Bool.or_eq_true, isHighSurrogate_iff, isLowSurrogate_iff]
  rw [Text.unitChar, if_pos hu, toNat_ofNat]
  unfold Grammar.High Grammar.Low at h
  omega

theorem unitChar_of_not_surrogate {u : Nat} (h : ¬(Grammar.High u ∨ Grammar.Low u)) :
    Text.unitChar u = Char.ofNat u := by
  have hu : ¬(Text.isHighSurrogate u || Text.isLowSurrogate u) = true := by
    rwa [Bool.or_eq_true, isHighSurrogate_iff, isLowSurrogate_iff]
  rw [Text.unitChar, if_neg hu]

/-- A unit that does not start a pair stands for itself. -/
theorem joinPairs_cons {u : Nat} {us : List Nat} (h : Grammar.High u → ∀ v ∈ us.head?, ¬Grammar.Low v) :
    Text.joinPairs (u :: us) = Text.unitChar u :: Text.joinPairs us := by
  cases us with
  | nil => rfl
  | cons v us =>
    have hpair : ¬(Text.isHighSurrogate u && Text.isLowSurrogate v) = true := by
      rw [Bool.and_eq_true, isHighSurrogate_iff, isLowSurrogate_iff]
      exact fun huv => h huv.1 v rfl huv.2
    rw [Text.joinPairs, if_neg hpair]

theorem joinPairs_pair {high low : Nat} {us : List Nat} (hhigh : Grammar.High high) (hlow : Grammar.Low low) :
    Text.joinPairs (high :: low :: us) = Text.pairChar high low :: Text.joinPairs us := by
  rw [Text.joinPairs, isHighSurrogate_iff.mpr hhigh, isLowSurrogate_iff.mpr hlow]
  rfl

theorem toNat_pairChar {high low : Nat} (hhigh : Grammar.High high) (hlow : Grammar.Low low) :
    (Text.pairChar high low).toNat = 0x10000 + (high - 0xD800) * 0x400 + (low - 0xDC00) := by
  unfold Grammar.High Grammar.Low at *
  rw [Text.pairChar, toNat_ofNat]
  omega

theorem joinPairs_eq {us : List Nat} {cs : List Char} (h : Grammar.Joined us cs) : Text.joinPairs us = cs := by
  induction h with
  | nil => rfl
  | char c _ ih =>
    obtain ⟨hhigh, hlow⟩ := not_surrogate_toNat c
    rw [joinPairs_cons fun h => absurd h hhigh, unitChar_of_not_surrogate (by simp [hhigh, hlow]),
      Char.ofNat_toNat, ih]
  | pair hhigh hlow hc _ ih =>
    rw [joinPairs_pair hhigh hlow, ih, ← Char.toNat_inj.mp ((toNat_pairChar hhigh hlow).trans hc.symm)]
  | alone hu hpair hc _ ih =>
    rw [joinPairs_cons hpair, ih, ← Char.toNat_inj.mp ((unitChar_of_surrogate hu).trans hc.symm)]

theorem joined_cons {u : Nat} {us : List Nat} {cs : List Char} (hu : u < 0x110000)
    (hpair : Grammar.High u → ∀ v ∈ us.head?, ¬Grammar.Low v) (h : Grammar.Joined us cs) :
    Grammar.Joined (u :: us) (Text.unitChar u :: cs) := by
  by_cases hsurrogate : Grammar.High u ∨ Grammar.Low u
  · exact .alone hsurrogate hpair (unitChar_of_surrogate hsurrogate) h
  · have hvalid : u < 0xD800 ∨ 0xDFFF < u ∧ u < 0x110000 := by
      unfold Grammar.High Grammar.Low at hsurrogate
      omega
    have hchar : Grammar.Joined ((Char.ofNat u).toNat :: us) (Char.ofNat u :: cs) := .char _ h
    rwa [toNat_ofNat hvalid, ← unitChar_of_not_surrogate hsurrogate] at hchar

theorem joined_joinPairs {us : List Nat} (h : ∀ u ∈ us, u < 0x110000) :
    Grammar.Joined us (Text.joinPairs us) := by
  fun_induction Text.joinPairs us with
  | case1 => exact .nil
  | case2 u => exact joined_cons (h u (List.mem_cons_self ..)) (fun _ _ hv => nomatch hv) .nil
  | case3 u v rest hpair ih =>
    rw [Bool.and_eq_true, isHighSurrogate_iff, isLowSurrogate_iff] at hpair
    have hrest := ih fun x hx => h x (List.mem_cons_of_mem _ (List.mem_cons_of_mem _ hx))
    exact .pair hpair.1 hpair.2 (toNat_pairChar hpair.1 hpair.2) hrest
  | case4 u v rest hpair ih =>
    rw [Bool.and_eq_true, isHighSurrogate_iff, isLowSurrogate_iff] at hpair
    have hrest := ih fun x hx => h x (List.mem_cons_of_mem _ hx)
    refine joined_cons (h u (List.mem_cons_self ..)) (fun hhigh w hw => ?_) hrest
    obtain rfl : v = w := Option.some.inj hw
    exact fun hlow => hpair ⟨hhigh, hlow⟩

theorem units_lt {body : List Char} {us : List Nat} (h : Grammar.Units body us) : ∀ u ∈ us, u < 0x110000 := by
  induction h with
  | nil => exact fun _ hu => nomatch hu
  | @plain c _ _ _ _ _ _ ih => exact List.forall_mem_cons.mpr ⟨toNat_lt c, ih⟩
  | @escape _ c _ _ _ _ ih => exact List.forall_mem_cons.mpr ⟨toNat_lt c, ih⟩
  | unicode hd₁ hd₂ hd₃ hd₄ _ ih =>
    have h₁ := hexDigit_lt hd₁
    have h₂ := hexDigit_lt hd₂
    have h₃ := hexDigit_lt hd₃
    have h₄ := hexDigit_lt hd₄
    exact List.forall_mem_cons.mpr ⟨by omega, ih⟩

/-! ### Strings -/

theorem takes_string (s : List Char) : Takes (fun t text => Grammar.Quoted ('"' :: t) text) s (string s) := by
  refine (takes_readUnits (s.length + 1) s).map (f := fun us => String.ofList (Text.joinPairs us)) ?_
  rintro _ us ⟨body, rfl, hbody⟩
  refine .mk hbody ?_
  rw [String.toList_ofList]
  exact joined_joinPairs (units_lt hbody)

theorem string_append {t : List Char} {text : String} (h : Grammar.Quoted t text) (rest : List Char) :
    ∃ u, t = '"' :: u ∧ string (u ++ rest) = .ok (text, rest) := by
  cases h with
  | @mk body us _ hbody hus =>
    refine ⟨_, rfl, ?_⟩
    simp only [List.append_assoc, List.singleton_append, string, readUnits_append hbody, Except.map,
      joinPairs_eq hus, String.ofList_toList]

end JsonShape.Strict
