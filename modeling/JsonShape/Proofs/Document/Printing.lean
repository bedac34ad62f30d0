import JsonShape.Document.Printer
import JsonShape.Proofs.Document.Recognition
import JsonShape.Proofs.Value.Depth
import JsonShape.Proofs.Value.Parts

/-!
# Printed values are documents

What the printer writes for a value is a document of the grammar for that very value, if a decoder can make the
value at all: its keys are texts, no object has one twice, and no number in it is a float. As the strict reader
reads the documents of the grammar, it reads a printed value back. What is printed is ASCII, in lines that end in
a line feed.

The grammar is followed part by part: digits, the units of a string, and lists of items and members, for which one
lemma stands.
-/

namespace JsonShape

/-- The value is no float, and no integer of more than so many digits. -/
def Value.Writable (digits : Nat) : Value → Prop
  | .int n => Decimal.digitCount n.natAbs ≤ digits
  | .float _ => False
  | .null | .bool _ | .str _ | .arr _ | .obj _ | .foreign _ => True

namespace Grammar

theorem Units.append {s t : List Char} {us vs : List Nat} (hs : Units s us)
    (ht : Units t vs) : Units (s ++ t) (us ++ vs) := by
  induction hs with
  | nil => exact ht
  | plain hquote hslash hcontrol _ ih => exact .plain hquote hslash hcontrol ih
  | escape hc _ ih => exact .escape hc ih
  | unicode hd₁ hd₂ hd₃ hd₄ _ ih => exact .unicode hd₁ hd₂ hd₃ hd₄ ih

theorem blanks_nil : Blanks [] := fun _ hc => nomatch hc

theorem Within.mono {α : Type} {Part : List Char → α → Nat → Nat → Prop} {digits levels levels' : Nat}
    {s : List Char} {a : α} (h : Within Part digits levels s a) (hlevels : levels ≤ levels') :
    Within Part digits levels' s a := by
  obtain ⟨d, n, h, hd, hn⟩ := h
  exact ⟨d, n, h, hd, hn.trans hlevels⟩

end Grammar

namespace Printer

/-! ### Numbers -/

theorem natOf_toDigits (n : Nat) : Grammar.natOf (Nat.toDigits 10 n) = n := by
  have h := Nat.ofDigitChars_ten_toDigits (n := n)
  rw [Nat.ofDigitChars_eq_foldl] at h
  simpa only [← Strict.digitsValue_eq, Decimal.digitsValue, Nat.mul_comm] using h

/-- A number but zero is not written with a zero in front. -/
theorem head?_toDigits {n : Nat} (hn : 0 < n) : (Nat.toDigits 10 n).head? ≠ some '0' := by
  induction n using Nat.base_induction 10 (by decide) with
  | single m hm =>
    rw [Nat.toDigits_of_lt_base hm]
    have hdigit : ∀ m < 10, 0 < m → some m.digitChar ≠ some '0' := by decide
    exact hdigit m hm hn
  | digit m k hk hm ih =>
    rw [← Nat.toDigits_append_toDigits (by decide) hm hk, List.head?_append_of_ne_nil _ Nat.toDigits_ne_nil]
    exact ih hm

theorem digits_toDigits (n : Nat) : Grammar.Digits (Nat.toDigits 10 n) :=
  ⟨Nat.toDigits_ne_nil, fun _ hc => Nat.isDigit_of_mem_toDigits (by decide) (by decide) hc⟩

theorem whole_toDigits (n : Nat) : Grammar.Whole (Nat.toDigits 10 n) := by
  rcases Nat.eq_zero_or_pos n with rfl | hn
  · exact .inl (Nat.toDigits_zero 10)
  · exact .inr ⟨digits_toDigits n, head?_toDigits hn⟩

/-- The sign of a number that is negative or not. -/
def minus (negative : Bool) : List Char := if negative then ['-'] else []

theorem minus_minus (negative : Bool) : Grammar.Minus (minus negative) negative := by
  cases negative with
  | false => exact .absent
  | true => exact .minus

theorem toList_toString (n : Int) : (toString n).toList = minus (n < 0) ++ Nat.toDigits 10 n.natAbs := by
  rw [Int.toString_eq_repr, Int.repr_eq_if]
  split
  · next h =>
    have hnat : n.toNat = n.natAbs := by omega
    have hsign : ¬ n < 0 := by omega
    simp [minus, hsign, hnat, Nat.toList_repr]
  · next h =>
    have hnat : (-n).toNat = n.natAbs := by omega
    have hsign : n < 0 := by omega
    simp [minus, hsign, hnat, Nat.toList_repr]

theorem signed_natAbs (n : Int) : Grammar.signed (n < 0) n.natAbs = n := by
  rw [Grammar.signed]
  split
  · next h =>
    have := of_decide_eq_true h
    omega
  · next h =>
    have : ¬ n < 0 := fun hn => h (decide_eq_true hn)
    omega

theorem derives_int (n : Int) :
    Grammar.Derives (toString n).toList (.int n) (Decimal.digitCount n.natAbs) 0 := by
  have h := Grammar.Derives.int (minus_minus (n < 0)) (whole_toDigits n.natAbs)
  rwa [natOf_toDigits, signed_natAbs, ← toList_toString] at h

/-! ### Strings -/

/-- The code units of a character: one, or a surrogate pair. -/
def unitsOf (c : Char) : List Nat :=
  if c.toNat < 0x10000 then [c.toNat]
  else [0xD800 + (c.toNat - 0x10000) / 0x400, 0xDC00 + (c.toNat - 0x10000) % 0x400]

theorem units_unitEscape {u : Nat} (h : u < 0x10000) : Grammar.Units (unitEscape u) [u] := by
  have hdigit : ∀ d < 16, Grammar.HexDigit (Text.hexDigit d) d := by decide
  have hvalue : ((u / 16 / 16 / 16 % 16 * 16 + u / 16 / 16 % 16) * 16 + u / 16 % 16) * 16 + u % 16 = u := by
    omega
  have hunits := Grammar.Units.unicode (hdigit (u / 16 / 16 / 16 % 16) (by omega))
    (hdigit (u / 16 / 16 % 16) (by omega)) (hdigit (u / 16 % 16) (by omega)) (hdigit (u % 16) (by omega)) .nil
  rwa [hvalue] at hunits

theorem units_stringChar (c : Char) : Grammar.Units (stringChar c) (unitsOf c) := by
  unfold stringChar
  split
  case h_8 hquote hslash _ _ _ _ _ =>
    dsimp only
    unfold unitsOf
    have hc := Strict.toNat_lt c
    split
    · next h =>
      rw [Bool.and_eq_true, decide_eq_true_eq, decide_eq_true_eq] at h
      rw [if_pos (by omega)]
      exact .plain hquote hslash (by omega) .nil
    · split
      · next h => exact units_unitEscape h
      · exact (units_unitEscape (by omega)).append (units_unitEscape (by omega))
  all_goals exact .escape (by decide) .nil

theorem units_flatMap (cs : List Char) : Grammar.Units (cs.flatMap stringChar) (cs.flatMap unitsOf) := by
  induction cs with
  | nil => exact .nil
  | cons c cs ih =>
    rw [List.flatMap_cons, List.flatMap_cons]
    exact (units_stringChar c).append ih

theorem joined_flatMap (cs : List Char) : Grammar.Joined (cs.flatMap unitsOf) cs := by
  induction cs with
  | nil => exact .nil
  | cons c cs ih =>
    have hc := Strict.toNat_lt c
    rw [List.flatMap_cons]
    unfold unitsOf
    split
    · exact .char c ih
    · refine .pair ?_ ?_ ?_ ih
      · unfold Grammar.High
        omega
      · unfold Grammar.Low
        omega
      · omega

theorem quoted_string (s : String) : Grammar.Quoted (string s) s :=
  .mk (units_flatMap s.toList) (joined_flatMap s.toList)

/-! ### Lists -/

theorem blanks_newline (level : Nat) : Grammar.Blanks (newline level) := by
  intro c hc
  rcases List.mem_cons.mp hc with rfl | hc
  · exact .inr (.inr (.inl rfl))
  · exact .inl (List.eq_of_mem_replicate hc)

/-- Parts that are written with commas and blanks between them. -/
theorem within_listed {α : Type} {Part : List Char → α → Nat → Nat → Prop} {digits levels : Nat}
    {text : α → List Char} {w : List Char} (hw : Grammar.Blanks w) {a : α} {as : List α}
    (h : ∀ b ∈ a :: as, Grammar.Within Part digits levels (text b) b) :
    Grammar.Within (Grammar.Listed Part) digits levels (text a ++ as.flatMap fun b => ',' :: (w ++ text b))
      (a :: as) := by
  induction as generalizing a with
  | nil =>
    obtain ⟨d, n, ha, hd, hn⟩ := h a (List.mem_cons_self ..)
    rw [List.flatMap_nil, List.append_nil]
    exact ⟨d, n, .single ha, hd, hn⟩
  | cons b as ih =>
    obtain ⟨d, n, ha, hd, hn⟩ := h a (List.mem_cons_self ..)
    obtain ⟨e, m, has, he, hm⟩ := ih fun c hc => h c (List.mem_cons_of_mem _ hc)
    refine ⟨max d e, max n m, ?_, max_le hd he, max_le hn hm⟩
    have hlisted := Grammar.Listed.cons ha Grammar.blanks_nil hw has
    simpa using hlisted

/-- A member as it is written. -/
def member (level : Nat) (m : String × Value) : List Char := string m.1 ++ [':', ' '] ++ value level m.2

theorem moreItems_eq (level : Nat) (items : List Value) :
    moreItems level items = items.flatMap fun v => ',' :: (newline level ++ value level v) := by
  induction items with
  | nil => rfl
  | cons v rest ih => simp [moreItems, ih]

theorem moreMembers_eq (level : Nat) (members : List (String × Value)) :
    moreMembers level (members.map fun (k, v) => (.text k, v)) =
      members.flatMap fun m => ',' :: (newline level ++ member level m) := by
  induction members with
  | nil => rfl
  | cons m rest ih => simp [moreMembers, member, key, ih]

theorem within_member {digits levels level : Nat} {m : String × Value}
    (h : Grammar.Within Grammar.Derives digits levels (value level m.2) m.2) :
    Grammar.Within Grammar.Member digits levels (member level m) m := by
  obtain ⟨d, n, h, hd, hn⟩ := h
  have hblank : Grammar.Blanks [' '] := List.forall_mem_singleton.mpr (.inl rfl)
  have hmember := Grammar.Member.mk (quoted_string m.1) Grammar.blanks_nil hblank h
  exact ⟨d, n, by simpa [member] using hmember, hd, hn⟩

/-! ### Values -/

/-- **A printed value is a document for it**, with brackets that nest as deep as the value. -/
theorem within_value {digits : Nat} {v : Value} (hv : v.Decoded) (hwritable : ∀ w ∈ v.parts, w.Writable digits)
    (level : Nat) : Grammar.Within Grammar.Derives digits v.depth (value level v) v := by
  induction hv generalizing level with
  | null => exact ⟨0, 0, .null, Nat.zero_le _, le_rfl⟩
  | bool b =>
    cases b with
    | false => exact ⟨0, 0, .false, Nat.zero_le _, le_rfl⟩
    | true => exact ⟨0, 0, .true, Nat.zero_le _, le_rfl⟩
  | int n => exact ⟨_, 0, derives_int n, hwritable _ (List.mem_cons_self ..), le_rfl⟩
  | float x => exact (hwritable _ (List.mem_cons_self ..)).elim
  | str s => exact ⟨0, 0, .str (quoted_string s), Nat.zero_le _, le_rfl⟩
  | @arr items _ ih =>
    have hitems : ∀ v ∈ items, Grammar.Within Grammar.Derives digits (Value.depthOfItems items)
        (value (level + 1) v) v := by
      intro v hv
      refine (ih v hv (fun w hw => ?_) (level + 1)).mono (Value.depth_le_depthOfItems hv)
      exact hwritable w (List.mem_cons_of_mem _ (Value.mem_partsOfItems.mpr ⟨v, hv, hw⟩))
    cases items with
    | nil => exact ⟨0, 1, .emptyArr Grammar.blanks_nil, Nat.zero_le _, le_rfl⟩
    | cons v rest =>
      obtain ⟨d, n, hlisted, hd, hn⟩ := within_listed (blanks_newline (level + 1)) hitems
      refine ⟨d, n + 1, ?_, hd, Nat.succ_le_succ hn⟩
      have h := Grammar.Derives.arr (blanks_newline (level + 1)) hlisted (blanks_newline level)
      simpa [value, moreItems_eq] using h
  | @obj members hkeys hnodup _ ih =>
    obtain ⟨texts, rfl⟩ := Value.exists_texts hkeys
    have htexts : (texts.map (·.1)).Nodup := by
      refine List.Nodup.of_map Key.text ?_
      simpa [Function.comp_def] using hnodup
    have hdepth : (Value.obj (texts.map fun (k, v) => (.text k, v))).depth =
        Value.depthOfItems (texts.map (·.2)) + 1 := by
      rw [Value.depth, Value.depthOfMembers_eq, List.map_map]
      rfl
    have hmembers : ∀ m ∈ texts, Grammar.Within Grammar.Member digits (Value.depthOfItems (texts.map (·.2)))
        (member (level + 1) m) m := by
      intro m hm
      have hm' := List.mem_map_of_mem (f := fun (k, v) => (Key.text k, v)) hm
      refine within_member ((ih _ hm' (fun w hw => ?_) (level + 1)).mono ?_)
      · exact hwritable w (List.mem_cons_of_mem _ (Value.mem_partsOfMembers.mpr ⟨_, hm', hw⟩))
      · exact Value.depth_le_depthOfItems (List.mem_map_of_mem hm)
    rw [hdepth, ← Value.settled_of_nodup htexts]
    cases texts with
    | nil => exact ⟨0, 1, .emptyObj Grammar.blanks_nil, Nat.zero_le _, le_rfl⟩
    | cons m rest =>
      obtain ⟨d, n, hlisted, hd, hn⟩ := within_listed (blanks_newline (level + 1)) hmembers
      refine ⟨d, n + 1, ?_, hd, Nat.succ_le_succ hn⟩
      have h := Grammar.Derives.obj (blanks_newline (level + 1)) hlisted (blanks_newline level)
      have htext : value level (.obj (Grammar.settled (m :: rest))) = '\x7b' :: (newline (level + 1) ++
          ((member (level + 1) m ++ rest.flatMap fun m => ',' :: (newline (level + 1) ++ member (level + 1) m)) ++
            (newline level ++ ['\x7d']))) := by
        rw [Value.settled_of_nodup htexts, List.map_cons]
        simp [value, moreMembers_eq, member, key]
      rw [htext]
      exact h

/-- A value is read back from what is printed for it. -/
theorem decode_print {v : Value} (hv : v.Decoded) (hwritable : ∀ w ∈ v.parts, w.Writable maxIntegerDigits)
    (hdepth : v.depth ≤ Strict.maxLevels) (named : Bool) :
    Strict.decode named (print v).toList = .ok v := by
  obtain ⟨d, n, h, hd, hn⟩ := within_value hv hwritable 0
  have hdocument := Grammar.Document.mk Grammar.blanks_nil h Grammar.blanks_nil
  rw [List.nil_append, List.append_nil] at hdocument
  rw [print, String.toList_ofList]
  exact Strict.decode_of_within ⟨d, n, hdocument, hd, hn.trans hdepth⟩ named

/-! ### ASCII -/

/-- The character is a line feed or printable ASCII. -/
def Ascii (c : Char) : Prop := c = '\n' ∨ 0x20 ≤ c.toNat ∧ c.toNat < 0x7F

instance (c : Char) : Decidable (Ascii c) := inferInstanceAs (Decidable (_ ∨ _))

/-- A fixed text is looked through. -/
theorem ascii_of_all {s : List Char} (h : s.all (fun c => decide (Ascii c)) = true) : ∀ c ∈ s, Ascii c :=
  fun c hc => of_decide_eq_true (List.all_eq_true.mp h c hc)

theorem ascii_toDigits (n : Nat) : ∀ c ∈ Nat.toDigits 10 n, Ascii c := by
  intro c hc
  have h : 0x30 ≤ c.toNat ∧ c.toNat ≤ 0x39 := Char.isDigit_iff_toNat.mp ((digits_toDigits n).2 c hc)
  exact .inr ⟨by omega, by omega⟩

theorem ascii_minus (negative : Bool) : ∀ c ∈ minus negative, Ascii c := by
  cases negative <;> exact ascii_of_all (by decide)

theorem ascii_toString (n : Int) : ∀ c ∈ (toString n).toList, Ascii c := by
  rw [toList_toString]
  exact List.forall_mem_append.mpr ⟨ascii_minus _, ascii_toDigits _⟩

theorem ascii_hexDigits (width n : Nat) : ∀ c ∈ Text.hexDigits width n, Ascii c := by
  induction width generalizing n with
  | zero => exact fun _ hc => nomatch hc
  | succ width ih =>
    have hdigit : ∀ d < 16, Ascii (Text.hexDigit d) := by decide
    refine List.forall_mem_append.mpr ⟨ih (n / 16), List.forall_mem_singleton.mpr ?_⟩
    exact hdigit (n % 16) (Nat.mod_lt n (by decide))

theorem ascii_stringChar (c : Char) : ∀ x ∈ stringChar c, Ascii x := by
  have hescape : ∀ u, ∀ x ∈ unitEscape u, Ascii x := fun u =>
    List.forall_mem_cons.mpr ⟨by decide, List.forall_mem_cons.mpr ⟨by decide, ascii_hexDigits 4 u⟩⟩
  unfold stringChar
  split
  case h_8 =>
    dsimp only
    split
    · next h =>
      rw [Bool.and_eq_true, decide_eq_true_eq, decide_eq_true_eq] at h
      exact List.forall_mem_singleton.mpr (.inr h)
    · split
      · exact hescape _
      · exact List.forall_mem_append.mpr ⟨hescape _, hescape _⟩
  all_goals exact ascii_of_all (by decide)

theorem ascii_string (s : String) : ∀ c ∈ string s, Ascii c := by
  have hcontent : ∀ c ∈ s.toList.flatMap stringChar, Ascii c := by
    intro c hc
    obtain ⟨x, -, hx⟩ := List.mem_flatMap.mp hc
    exact ascii_stringChar x c hx
  have hquote : Ascii '"' := by decide
  exact List.forall_mem_append.mpr
    ⟨List.forall_mem_cons.mpr ⟨hquote, hcontent⟩, List.forall_mem_singleton.mpr hquote⟩

theorem ascii_newline (level : Nat) : ∀ c ∈ newline level, Ascii c := by
  refine List.forall_mem_cons.mpr ⟨.inl rfl, fun c hc => ?_⟩
  rw [List.eq_of_mem_replicate hc]
  decide

theorem ascii_key (k : Key) : ∀ c ∈ key k, Ascii c := by
  cases k with
  | text s => exact ascii_string s
  | other => exact List.forall_mem_nil _

mutual
/-- Whatever the value is, what is printed for it is ASCII. -/
theorem ascii_value (level : Nat) (v : Value) : ∀ c ∈ value level v, Ascii c := by
  cases v with
  | null =>
    rw [value]
    exact ascii_of_all (by decide)
  | bool b =>
    rw [value]
    cases b <;> exact ascii_of_all (by decide)
  | int n => exact ascii_toString n
  | str s => exact ascii_string s
  | float | foreign =>
    rw [value]
    exact List.forall_mem_nil _
  | arr items =>
    cases items with
    | nil =>
      rw [value]
      exact ascii_of_all (by decide)
    | cons v rest =>
      have hbrackets : Ascii '[' ∧ Ascii ']' := by decide
      simp only [value, List.forall_mem_append, List.forall_mem_cons]
      exact ⟨⟨⟨⟨⟨hbrackets.1, ascii_newline _⟩, ascii_value _ v⟩, ascii_moreItems _ rest⟩, ascii_newline _⟩,
        hbrackets.2, List.forall_mem_nil _⟩
  | obj members =>
    cases members with
    | nil =>
      rw [value]
      exact ascii_of_all (by decide)
    | cons m rest =>
      obtain ⟨k, v⟩ := m
      have hbraces : Ascii '\x7b' ∧ Ascii '\x7d' := by decide
      have hcolon : ∀ c ∈ [':', ' '], Ascii c := ascii_of_all (by decide)
      simp only [value, List.forall_mem_append, List.forall_mem_cons (a := '\x7b'),
        List.forall_mem_cons (a := '\x7d')]
      exact ⟨⟨⟨⟨⟨⟨⟨hbraces.1, ascii_newline _⟩, ascii_key k⟩, hcolon⟩, ascii_value _ v⟩,
        ascii_moreMembers _ rest⟩, ascii_newline _⟩, hbraces.2, List.forall_mem_nil _⟩
theorem ascii_moreItems (level : Nat) (items : List Value) : ∀ c ∈ moreItems level items, Ascii c := by
  cases items with
  | nil => exact List.forall_mem_nil _
  | cons v rest =>
    have hcomma : Ascii ',' := by decide
    simp only [moreItems, List.forall_mem_append, List.forall_mem_cons]
    exact ⟨⟨⟨hcomma, ascii_newline _⟩, ascii_value _ v⟩, ascii_moreItems _ rest⟩
theorem ascii_moreMembers (level : Nat) (members : List (Key × Value)) :
    ∀ c ∈ moreMembers level members, Ascii c := by
  cases members with
  | nil => exact List.forall_mem_nil _
  | cons m rest =>
    obtain ⟨k, v⟩ := m
    have hcomma : Ascii ',' := by decide
    have hcolon : ∀ c ∈ [':', ' '], Ascii c := ascii_of_all (by decide)
    simp only [moreMembers, List.forall_mem_append, List.forall_mem_cons (a := ',')]
    exact ⟨⟨⟨⟨⟨hcomma, ascii_newline _⟩, ascii_key k⟩, hcolon⟩, ascii_value _ v⟩, ascii_moreMembers _ rest⟩
end

theorem ascii_print (v : Value) : ∀ c ∈ (print v).toList, Ascii c := by
  rw [print, String.toList_ofList]
  exact ascii_value 0 v

end Printer

end JsonShape
