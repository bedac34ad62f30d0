import JsonShape.Document.Lenient
import JsonShape.Proofs.CSharp.Lines
import JsonShape.Proofs.Document.Lexemes

/-!
# Keys as string literals

The attribute of a member holds its key as a regular string literal of C#. Literals are read here by C#'s own
rules: a backslash starts an escape, the first quote outside of an escape ends the literal, and a character
that ends a line may not stand in it. Writing a key escapes quotes and backslashes, so a literal always ends at
its own closing quote and what it stands for is the key; but a character of the key that ends a line is written
as it is, and with one the literal is none by the last rule.
-/

namespace JsonShape.CSharp

/-! ### Reading literals -/

/-- The characters that end a line in C#: line feed, carriage return, next line, and the two separators. -/
def isLineTerminator (c : Char) : Bool :=
  c = '\n' || c = '\r' || c = '\u0085' || c = '\u2028' || c = '\u2029'

/-- The code unit of a simple escape by the character after its backslash. -/
def simpleEscape? (c : Char) : Option Nat :=
  match c with
  | '\x27' => some 0x27
  | '"' => some 0x22
  | '\\' => some 0x5C
  | '0' => some 0
  | 'a' => some 7
  | 'b' => some 8
  | 'f' => some 0xC
  | 'n' => some 0xA
  | 'r' => some 0xD
  | 't' => some 9
  | 'v' => some 0xB
  | _ => none

/-- The code unit that at least `low` and at most `high` hexadecimal digits write, and what follows them. As
many digits are taken as there are. -/
def hexEscape? (low high : Nat) (s : List Char) : Option (Nat × List Char) :=
  let digits := (s.take high).takeWhile fun c => (Text.hexValue? c).isSome
  if digits.length < low then none
  else (Text.hexNumber? digits).bind fun u =>
    if u < 0x110000 then some (u, s.drop digits.length) else none

/-- The code unit of an escape after its backslash, and what follows the escape. -/
def escape? : List Char → Option (Nat × List Char)
  | [] => none
  | c :: rest =>
    if c = 'u' then hexEscape? 4 4 rest
    else if c = 'U' then hexEscape? 8 8 rest
    else if c = 'x' then hexEscape? 1 4 rest
    else (simpleEscape? c).map (·, rest)

theorem length_lt_of_escape? {s t : List Char} {u : Nat} (h : escape? s = some (u, t)) :
    t.length < s.length + 1 := by
  cases s with
  | nil => cases h
  | cons c rest =>
    have hhex : ∀ low high, hexEscape? low high rest = some (u, t) → t.length ≤ rest.length := by
      intro low high h
      simp only [hexEscape?, Option.ite_none_left_eq_some, Option.bind_eq_some_iff,
        Option.ite_none_right_eq_some, Option.some.injEq, Prod.mk.injEq] at h
      obtain ⟨-, v, -, -, -, rfl⟩ := h
      exact (List.length_drop.trans_le (Nat.sub_le ..))
    have hle : t.length ≤ rest.length := by
      rw [escape?] at h
      split_ifs at h
      · exact hhex _ _ h
      · exact hhex _ _ h
      · exact hhex _ _ h
      · obtain ⟨v, -, hv⟩ := Option.map_eq_some_iff.mp h
        rw [(Prod.mk.inj hv).2]
    exact Nat.lt_succ_of_lt (Nat.lt_succ_of_le hle)

/-- The code units of a literal after its opening quote, and what follows its closing quote. The characters
outside of escapes have to be plain. -/
def readUnits (plain : Char → Bool) : List Char → Option (List Nat × List Char)
  | [] => none
  | c :: rest =>
    if c = '"' then some ([], rest)
    else if c = '\\' then
      match _h : escape? rest with
      | some (u, after) => (readUnits plain after).map fun (us, s) => (u :: us, s)
      | none => none
    else if plain c then (readUnits plain rest).map fun (us, s) => (c.toNat :: us, s)
    else none
  termination_by s => s.length
  decreasing_by
    · exact length_lt_of_escape? ‹_›
    · exact Nat.lt_succ_self _

/-- The text that the literal at the start of some characters stands for, and what follows the literal. -/
def readLiteral (plain : Char → Bool) : List Char → Option (String × List Char)
  | [] => none
  | c :: rest =>
    if c = '"' then
      (readUnits plain rest).map fun (us, s) => (String.ofList (Text.joinPairs us), s)
    else none

/-- A literal by all rules of C#: outside of escapes no character ends a line. -/
def readRegular : List Char → Option (String × List Char) := readLiteral (!isLineTerminator ·)

/-! ### What is written is read back -/

variable {plain : Char → Bool}

theorem readUnits_escape {s t : List Char} {u : Nat} (h : escape? s = some (u, t)) :
    readUnits plain ('\\' :: s) = (readUnits plain t).map fun (us, rest) => (u :: us, rest) := by
  rw [readUnits, if_neg (by decide), if_pos rfl]
  split
  · next heq =>
    rw [h, Option.some.injEq, Prod.mk.injEq] at heq
    rw [heq.1, heq.2]
  · next heq => rw [h] at heq; cases heq

/-- Escapes of a line feed and of two letters by their numbers. -/
example : readRegular "\"a\\nb\\x41\\u0062\")".toList = some ("a\nbAb", [')']) := by cbv

theorem readUnits_of_ne {c : Char} (hquote : c ≠ '"') (hbackslash : c ≠ '\\') (s : List Char) :
    readUnits plain (c :: s) =
      if plain c then (readUnits plain s).map fun (us, rest) => (c.toNat :: us, rest) else none := by
  rw [readUnits, if_neg hquote, if_neg hbackslash]

/-- What is written for a character stands for it, if it may stand in a literal. -/
theorem readUnits_literalChar (hquote : plain '"' = true) (hbackslash : plain '\\' = true) (c : Char)
    (s : List Char) : readUnits plain (literalChar c ++ s) =
      if plain c then (readUnits plain s).map fun (us, rest) => (c.toNat :: us, rest) else none := by
  by_cases hb : c = '\\'
  · subst hb
    rw [if_pos hbackslash]
    exact readUnits_escape rfl
  · by_cases hq : c = '"'
    · subst hq
      rw [if_pos hquote]
      exact readUnits_escape rfl
    · rw [literalChar, if_neg (by simp [hb, hq])]
      exact readUnits_of_ne hq hb s

theorem readUnits_flatMap (hquote : plain '"' = true) (hbackslash : plain '\\' = true) (cs rest : List Char) :
    readUnits plain (cs.flatMap literalChar ++ '"' :: rest) =
      if cs.all plain then some (cs.map Char.toNat, rest) else none := by
  induction cs with
  | nil => simp [readUnits]
  | cons c cs ih =>
    rw [List.flatMap_cons, List.append_assoc, readUnits_literalChar hquote hbackslash, ih]
    by_cases hc : plain c = true
    · by_cases hcs : cs.all plain = true
      · simp [hc, hcs]
      · simp [hc, hcs]
    · simp [hc]

theorem joinPairs_map_toNat (cs : List Char) : Text.joinPairs (cs.map Char.toNat) = cs := by
  refine Strict.joinPairs_eq ?_
  induction cs with
  | nil => exact .nil
  | cons c cs ih => exact .char c ih

/-- A literal ends at its own closing quote and stands for its text, if every character of the text may stand
in a literal; otherwise it is none. -/
theorem readLiteral_stringLiteral (hquote : plain '"' = true) (hbackslash : plain '\\' = true) (s : String)
    (rest : List Char) : readLiteral plain ((stringLiteral s).toList ++ rest) =
      if s.toList.all plain then some (s, rest) else none := by
  rw [stringLiteral, String.toList_ofList, List.cons_append, List.cons_append, readLiteral, if_pos rfl,
    List.append_assoc, List.singleton_append, readUnits_flatMap hquote hbackslash]
  by_cases hs : s.toList.all plain = true
  · simp only [hs, if_true, Option.map_some, joinPairs_map_toNat, String.ofList_toList]
  · simp only [hs, Bool.false_eq_true, if_false, Option.map_none]

/-- Where any character may stand in a literal, every literal stands for its text. -/
theorem readLiteral_true (s : String) (rest : List Char) :
    readLiteral (fun _ => true) ((stringLiteral s).toList ++ rest) = some (s, rest) := by
  rw [readLiteral_stringLiteral rfl rfl]
  simp

theorem readRegular_stringLiteral (s : String) (rest : List Char) :
    readRegular ((stringLiteral s).toList ++ rest) =
      if s.toList.any isLineTerminator then none else some (s, rest) := by
  rw [readRegular, readLiteral_stringLiteral (by decide) (by decide), ← List.not_any_eq_all_not]
  cases s.toList.any isLineTerminator <;> rfl

theorem stringLiteral_injective : Function.Injective stringLiteral := by
  intro s t h
  have hs := readLiteral_true s []
  rw [h, readLiteral_true, Option.some.injEq, Prod.mk.injEq] at hs
  exact hs.1.symm

/-- What ends a line in a literal ends a line in its text. -/
theorem filter_stringLiteral (s : String) :
    (stringLiteral s).toList.filter isLineTerminator = s.toList.filter isLineTerminator := by
  have hchar : ∀ c, (literalChar c).filter isLineTerminator = [c].filter isLineTerminator := by
    intro c
    unfold literalChar
    split
    · rw [List.filter_cons_of_neg (by decide)]
    · rfl
  rw [stringLiteral, String.toList_ofList, List.cons_append, List.filter_cons_of_neg (by decide),
    List.filter_append, List.filter_flatMap, funext hchar, ← List.filter_flatMap, List.flatMap_singleton']
  simp [isLineTerminator]

/-! ### The attributes of members -/

variable {t : Tree} {around : List ClassDecl} {d : ClassDecl} {m : Member}

theorem attribute_mem_memberLines (options : OutputOptions) (indent : String) (m : Member) :
    indent ++ "[JsonPropertyName(" ++ stringLiteral m.key ++ ")]" ∈ memberLines options indent m :=
  List.mem_append_left _ (List.mem_append_left _ (List.mem_append_right _ (List.mem_singleton.mpr rfl)))

/-- The text has a line with the attribute of each member. -/
theorem attribute_mem_treeLines (options : OutputOptions) (hd : DeclaredIn (ofTree t) around d)
    (hm : m ∈ d.members) :
    ∃ n, tabs n ++ "[JsonPropertyName(" ++ stringLiteral m.key ++ ")]" ∈ treeLines options t :=
  ⟨_, mem_treeLines_of_mem_memberLines hd hm (attribute_mem_memberLines ..)⟩

/-- **The literal of a key is faithful, unless the key ends a line.** Each member of a declared class has its
attribute in the text. Whatever follows the attribute's literal, the literal ends at its own closing quote, and
what its escapes and other characters stand for is just the member's key; no other text has the same literal.
The characters that end a line stand in it as often as they stand in the key, so by all rules of C# it is a
literal if there is none, and then it stands for the key, and else it is not. -/
theorem keyLiteral_faithful (options : OutputOptions) (hd : DeclaredIn (ofTree t) around d) (hm : m ∈ d.members) :
    (∃ n, tabs n ++ "[JsonPropertyName(" ++ stringLiteral m.key ++ ")]" ∈ treeLines options t) ∧
    (∀ rest, readLiteral (fun _ => true) ((stringLiteral m.key).toList ++ rest) = some (m.key, rest)) ∧
    (∀ key, stringLiteral key = stringLiteral m.key → key = m.key) ∧
    (stringLiteral m.key).toList.filter isLineTerminator = m.key.toList.filter isLineTerminator ∧
    ∀ rest, readRegular ((stringLiteral m.key).toList ++ rest) =
      if m.key.toList.any isLineTerminator then none else some (m.key, rest) := by
  exact ⟨attribute_mem_treeLines options hd hm, readLiteral_true m.key, fun _ h => stringLiteral_injective h,
    filter_stringLiteral m.key, readRegular_stringLiteral m.key⟩

/-- A key that ends with a backslash and a quote, of an object inside another. -/
theorem keyLiteral_faithful_backslash :
    let m : Member := ⟨"a\\\"", ⟨.primitive .integer, 0⟩, "A"⟩
    let tree : Tree := { root := ⟨"Root", 0, [("x", .object ⟨"X", 1, [(m.key, .prim .integer)]⟩)]⟩ }
    (ofTree tree).nested.map (·.members) = [[m]] ∧ stringLiteral m.key = "\"a\\\\\\\"\"" ∧
      (∃ n, tabs n ++ "[JsonPropertyName(" ++ stringLiteral m.key ++ ")]" ∈ treeLines {} tree) ∧
      readRegular ((stringLiteral m.key).toList ++ ")]".toList) = some (m.key, ")]".toList) := by
  intro m tree
  have hnested : (ofTree tree).nested.map (·.members) = [[m]] := by cbv
  obtain ⟨e, he, hm⟩ := List.map_eq_singleton_iff.mp hnested
  have hd : DeclaredIn (ofTree tree) [ofTree tree] e := .nested .root (he ▸ List.mem_singleton_self e)
  obtain ⟨hline, -, -, -, hread⟩ := keyLiteral_faithful {} hd (hm ▸ List.mem_singleton_self m)
  refine ⟨hnested, by decide, hline, (hread _).trans ?_⟩
  rw [if_neg (by decide)]

/-- A document whose key has a line feed: the literal of the key in the text goes over two lines, so by all
rules of C# it is none. -/
theorem keyLiteral_of_line_feed :
    letI := Lenient.decoder
    let request : Request := { source := .text "\x7b\"a\\nb\": 1\x7d", rootName := "Root" }
    let tree : Tree := { root := ⟨"Root", 0, [("a\nb", .prim .integer)]⟩ }
    (request.run none).1 = .ok (.succeeded tree) ∧
      (∃ n, tabs n ++ "[JsonPropertyName(\"a\nb\")]" ∈ treeLines {} tree) ∧
      stringLiteral "a\nb" = "\"a\nb\"" ∧ readRegular (stringLiteral "a\nb").toList = none := by
  generalize Lenient.decoder = json5
  intro request tree
  have hmembers : (ofTree tree).members = [⟨"a\nb", ⟨.primitive .integer, 0⟩, "AB"⟩] := by cbv
  obtain ⟨n, hline⟩ := attribute_mem_treeLines {} .root (hmembers ▸ List.mem_singleton_self _)
  have hliteral : stringLiteral "a\nb" = "\"a\nb\"" := by decide
  rw [hliteral, String.append_assoc, String.append_assoc] at hline
  have hread := readRegular_stringLiteral "a\nb" []
  rw [List.append_nil, if_pos (by decide)] at hread
  exact ⟨by cbv, ⟨n, hline⟩, hliteral, hread⟩

end JsonShape.CSharp
