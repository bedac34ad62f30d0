import JsonShape.Proofs.Identifier
import JsonShape.Text.Character
import Mathlib

/-!
# Words of keys

The words of a key are its longest runs of ASCII letters and digits, and its identifier spells them one after the
other, each with its first character in upper case. The walk that finds the identifier goes character by character;
two replacements one after the other, of the gaps between words and of what is behind the last one, come to the
same. Identifiers have one of three forms. A text of such a form is its own identifier, and a name that C# allows.
-/

namespace JsonShape

/-! ### Characters -/

section Characters

variable {c : Char}

theorem isWordChar_of_isUpper (h : c.isUpper = true) : isWordChar c = true := by
  simp [isWordChar, Char.isAlphanum, Char.isAlpha, h]

theorem not_isDigit_of_isUpper (h : c.isUpper = true) : ¬ c.isDigit = true :=
  of_isWordChar (P := fun c => c.isUpper = true → ¬ c.isDigit = true) (by decide) (isWordChar_of_isUpper h) h

theorem toUpper_of_isDigit (h : c.isDigit = true) : c.toUpper = c :=
  of_isWordChar (P := fun c => c.isDigit = true → c.toUpper = c) (by decide) (isWordChar_of_isDigit h) h

theorem isDigit_toUpper (h : isWordChar c = true) : c.toUpper.isDigit = c.isDigit :=
  of_isWordChar (P := fun c => c.toUpper.isDigit = c.isDigit) (by decide) h

/-- A word character that is no digit is a letter. -/
theorem isUpper_toUpper (h : isWordChar c = true) (hdigit : c.isDigit = false) : c.toUpper.isUpper = true := by
  rw [Char.isUpper_toUpper_eq_isAlpha]
  simpa [isWordChar, Char.isAlphanum, hdigit] using h

end Characters

/-! ### Words -/

/-- The words of a text: each starts at a word character and goes on as long as there are more of them. -/
def words : List Char → List (List Char)
  | [] => []
  | c :: rest =>
    if isWordChar c then (c :: rest.takeWhile isWordChar) :: words (rest.dropWhile isWordChar)
    else words rest
  termination_by cs => cs.length
  decreasing_by
    · have := rest.length_dropWhile_le isWordChar
      simp only [List.length_cons]
      omega
    · simp

/-- A word with its first character in upper case. -/
def upperFirst : List Char → List Char
  | [] => []
  | c :: rest => c.toUpper :: rest

/-- The identifier that words make up, joined with each one's first character in upper case. An underscore stands in
place of no words, and before a digit. -/
def joinWords (ws : List (List Char)) : List Char :=
  let joined := ws.flatMap upperFirst
  if ws.isEmpty then ['_'] else if joined.head?.any Char.isDigit then '_' :: joined else joined

/-- Within a word nothing is changed up to its end. -/
theorem collapse_false_eq (cs : List Char) :
    collapse false cs = cs.takeWhile isWordChar ++ collapse true (cs.dropWhile isWordChar) := by
  induction cs with
  | nil => rfl
  | cons c rest ih =>
    by_cases hc : isWordChar c = true
    · simp [collapse, hc, ih]
    · simp [collapse, hc]

/-- Behind a separator the words are joined. -/
theorem collapse_true_eq (cs : List Char) : collapse true cs = (words cs).flatMap upperFirst := by
  fun_induction words cs with
  | case1 => rfl
  | case2 c rest hc ih =>
    rw [collapse, if_pos hc, if_pos rfl, collapse_false_eq, ih, List.flatMap_cons, upperFirst, List.cons_append]
  | case3 c rest hc ih => rw [collapse, if_neg hc, ih]

/-- It makes no difference to the identifier whether a separator is in front. -/
theorem capitalize_collapse (cs : List Char) : capitalize (collapse false cs) = capitalize (collapse true cs) := by
  cases cs with
  | nil => rfl
  | cons c rest =>
    by_cases hc : isWordChar c = true
    · simp only [collapse, if_pos hc, capitalize, isDigit_toUpper hc, Char.toUpper_toUpper_eq_toUpper,
        Bool.false_eq_true, if_false, if_true]
      split
      · next hdigit => rw [toUpper_of_isDigit hdigit]
      · rfl
    · simp [collapse, hc]

/-- The identifier spells the words of the key. -/
theorem capitalize_collapse_eq (cs : List Char) : capitalize (collapse false cs) = joinWords (words cs) := by
  rw [capitalize_collapse, collapse_true_eq]
  fun_induction words cs with
  | case1 => rfl
  | case2 c rest hc =>
    simp only [joinWords, List.flatMap_cons, upperFirst, List.cons_append, capitalize, List.isEmpty_cons,
      List.head?_cons, Option.any_some, Char.toUpper_toUpper_eq_toUpper, Bool.false_eq_true, if_false]
  | case3 c rest hc ih => exact ih

/-! ### Two replacements -/

/-- A text in which each run of separators before a word character, together with it, gives way to this character in
upper case. A run at the end stays. -/
def closeGaps : List Char → List Char
  | [] => []
  | c :: rest =>
    if isWordChar c then c :: closeGaps rest
    else
      match _h : rest.dropWhile (!isWordChar ·) with
      | [] => c :: rest
      | d :: after => d.toUpper :: closeGaps after
  termination_by cs => cs.length
  decreasing_by
    · simp
    · have := rest.length_dropWhile_le (!isWordChar ·)
      have := congrArg List.length ‹rest.dropWhile (!isWordChar ·) = d :: after›
      simp only [List.length_cons] at *
      omega

/-- A text without the separators at its end. -/
def dropTrailing (cs : List Char) : List Char := cs.rdropWhile (!isWordChar ·)

theorem dropTrailing_cons {c : Char} (hc : isWordChar c = true) (cs : List Char) :
    dropTrailing (c :: cs) = c :: dropTrailing cs := by
  unfold dropTrailing List.rdropWhile
  rw [List.reverse_cons, List.dropWhile_append]
  split
  · next hempty => simp [List.isEmpty_iff.mp hempty, hc]
  · simp

/-- Separators in front are passed over. -/
theorem collapse_dropWhile (cs : List Char) : collapse true (cs.dropWhile (!isWordChar ·)) = collapse true cs := by
  induction cs with
  | nil => rfl
  | cons c rest ih =>
    by_cases hc : isWordChar c = true
    · simp [hc]
    · simp [collapse, hc, ih]

/-- The gaps closed, then what is behind the last word dropped: this is what the walk with a flag leaves. -/
theorem dropTrailing_closeGaps (cs : List Char) : dropTrailing (closeGaps cs) = collapse false cs := by
  fun_induction closeGaps cs with
  | case1 => rfl
  | case2 c rest hc ih => rw [dropTrailing_cons hc, ih, collapse, if_pos hc, if_neg Bool.false_ne_true]
  | case3 c rest hc hrest =>
    have hseparators : ∀ d ∈ c :: rest, (!isWordChar d) = true := by
      simpa [hc] using hrest
    rw [dropTrailing, List.rdropWhile_eq_nil_iff.mpr hseparators, collapse, if_neg hc, ← collapse_dropWhile, hrest,
      collapse]
  | case4 c rest hc d after hrest ih =>
    have hd : isWordChar d = true := by
      have hhead := List.head_dropWhile_not (!isWordChar ·) (l := rest) (by simp [hrest])
      simpa [hrest] using hhead
    rw [dropTrailing_cons (isWordChar_toUpper hd), ih, collapse, if_neg hc, ← collapse_dropWhile, hrest, collapse,
      if_pos hd, if_pos rfl]

/-! ### Forms -/

/-- The forms of identifiers: an underscore alone; one before a digit and word characters; an upper-case letter
before word characters. -/
inductive IdentifierForm : List Char → Prop
  | blank : IdentifierForm ['_']
  | digit {d : Char} {cs : List Char} (hd : d.isDigit = true) (hcs : ∀ c ∈ cs, isWordChar c = true) :
      IdentifierForm ('_' :: d :: cs)
  | letter {u : Char} {cs : List Char} (hu : u.isUpper = true) (hcs : ∀ c ∈ cs, isWordChar c = true) :
      IdentifierForm (u :: cs)

/-- Word characters make up an identifier of one of the forms. -/
theorem identifierForm_capitalize {cs : List Char} (h : ∀ c ∈ cs, isWordChar c = true) :
    IdentifierForm (capitalize cs) := by
  cases cs with
  | nil => exact .blank
  | cons c rest =>
    rw [List.forall_mem_cons] at h
    rw [capitalize]
    split
    · next hdigit => exact .digit hdigit h.2
    · next hdigit => exact .letter (isUpper_toUpper h.1 (Bool.eq_false_iff.mpr hdigit)) h.2

theorem identifierForm_deriveIdentifier (key : String) : IdentifierForm (deriveIdentifier key).toList := by
  rw [deriveIdentifier, String.toList_ofList]
  exact identifierForm_capitalize fun c hc => isWordChar_of_mem_collapse hc

/-- A run of word characters stays as it is. -/
theorem collapse_false_of_forall {cs : List Char} (h : ∀ c ∈ cs, isWordChar c = true) : collapse false cs = cs := by
  rw [collapse_false_eq, List.takeWhile_eq_self_iff.mpr h, List.dropWhile_eq_nil_iff.mpr h, collapse, List.append_nil]

/-- The identifiers are the texts of the three forms, and each is its own identifier. -/
theorem deriveIdentifier_eq_self_iff {s : String} : deriveIdentifier s = s ↔ IdentifierForm s.toList := by
  constructor
  · intro h
    rw [← h]
    exact identifierForm_deriveIdentifier s
  · intro h
    suffices hlist : capitalize (collapse false s.toList) = s.toList by
      rw [deriveIdentifier, hlist, String.ofList_toList]
    generalize s.toList = cs at h
    cases h with
    | blank => rfl
    | @digit d cs hd hcs =>
      have hword := isWordChar_of_isDigit hd
      have hunderscore : isWordChar '_' = false := rfl
      simp [collapse, hunderscore, hword, toUpper_of_isDigit hd, collapse_false_of_forall hcs, capitalize, hd]
    | @letter u cs hu hcs =>
      have hall : ∀ c ∈ u :: cs, isWordChar c = true := List.forall_mem_cons.mpr ⟨isWordChar_of_isUpper hu, hcs⟩
      have hupper : u.toUpper = u := Char.toUpper_eq_of_not_isLower (Char.not_isLower_of_isUpper hu)
      rw [collapse_false_of_forall hall, capitalize, hupper, if_neg (not_isDigit_of_isUpper hu)]

/-! ### Names in C# -/

namespace CSharp

/-- The words that C# reserves, and those that it gives a meaning to in certain places. -/
def keywords : List String := [
  "abstract", "as", "base", "bool", "break", "byte", "case", "catch", "char", "checked", "class", "const",
  "continue", "decimal", "default", "delegate", "do", "double", "else", "enum", "event", "explicit", "extern",
  "false", "finally", "fixed", "float", "for", "foreach", "goto", "if", "implicit", "in", "int", "interface",
  "internal", "is", "lock", "long", "namespace", "new", "null", "object", "operator", "out", "override", "params",
  "private", "protected", "public", "readonly", "ref", "return", "sbyte", "sealed", "short", "sizeof", "stackalloc",
  "static", "string", "struct", "switch", "this", "throw", "true", "try", "typeof", "uint", "ulong", "unchecked",
  "unsafe", "ushort", "using", "virtual", "void", "volatile", "while",
  "add", "alias", "allows", "and", "args", "ascending", "async", "await", "by", "descending", "dynamic", "equals",
  "extension", "field", "file", "from", "get", "global", "group", "init", "into", "join", "let", "managed",
  "nameof", "nint", "not", "notnull", "nuint", "on", "or", "orderby", "partial", "record", "remove", "required",
  "scoped", "select", "set", "unmanaged", "value", "var", "when", "where", "with", "yield"]

/-- The characters that an identifier of C# may start with: letters, letter numbers and the underscore. -/
def startsIdentifier (c : Char) : Bool := Text.startsName c && c != '$'

/-- The characters that an identifier of C# may go on with. Of the formatting characters the two joiners alone are
counted. -/
def continuesIdentifier (c : Char) : Bool := Text.continuesName c && c != '$'

/-- Whether a text is an identifier by the rules of C#. A keyword is none. -/
def isIdentifier (s : String) : Bool :=
  match s.toList with
  | [] => false
  | c :: rest => startsIdentifier c && rest.all continuesIdentifier && !keywords.contains s

/-- Keywords start with a lower-case letter. -/
theorem isLower_of_mem_keywords {w : String} (h : w ∈ keywords) : w.toList.head?.any Char.isLower = true := by
  have hall : ∀ w ∈ keywords, w.toList.head?.any Char.isLower = true := by decide +kernel
  exact hall w h

theorem not_mem_keywords {s : String} (h : IdentifierForm s.toList) : s ∉ keywords := by
  intro hs
  have hlower := isLower_of_mem_keywords hs
  generalize s.toList = cs at h hlower
  cases h with
  | blank | digit =>
    have hunderscore : '_'.isLower = false := rfl
    simp [hunderscore] at hlower
  | letter hu => exact Char.not_isLower_of_isUpper hu (by simpa using hlower)

theorem continuesIdentifier_of_isWordChar {c : Char} (h : isWordChar c = true) : continuesIdentifier c = true :=
  of_isWordChar (P := fun c => isWordChar c = true → continuesIdentifier c = true) (by decide) h h

theorem startsIdentifier_of_isUpper {c : Char} (h : c.isUpper = true) : startsIdentifier c = true :=
  of_isWordChar (P := fun c => c.isUpper = true → startsIdentifier c = true) (by decide) (isWordChar_of_isUpper h) h

/-- C# allows a text of one of the forms as a name. -/
theorem isIdentifier_of_form {s : String} (h : IdentifierForm s.toList) : isIdentifier s = true := by
  have hkeyword : keywords.contains s = false := by simpa using not_mem_keywords h
  have hall {cs : List Char} (hcs : ∀ c ∈ cs, isWordChar c = true) : cs.all continuesIdentifier = true :=
    List.all_eq_true.mpr fun c hc => continuesIdentifier_of_isWordChar (hcs c hc)
  unfold isIdentifier
  rw [hkeyword]
  generalize s.toList = cs at h
  cases h with
  | blank => decide
  | @digit d cs hd hcs =>
    have hunderscore : startsIdentifier '_' = true := by decide
    simp [hunderscore, continuesIdentifier_of_isWordChar (isWordChar_of_isDigit hd), hall hcs]
  | letter hu hcs => simp [startsIdentifier_of_isUpper hu, hall hcs]

end CSharp

/-! ### Identifiers -/

/-- **The identifier of a key spells its words.** For every key it is what the words make up, and what the two
replacements leave with its first character in upper case or an underscore in front. It has one of the three forms,
C# allows it as a name and has no such keyword, and it is its own identifier. -/
theorem deriveIdentifier_eq_joinWords (key : String) :
    let identifier := deriveIdentifier key
    identifier = String.ofList (joinWords (words key.toList)) ∧
    identifier = String.ofList (capitalize (dropTrailing (closeGaps key.toList))) ∧
    IdentifierForm identifier.toList ∧
    CSharp.isIdentifier identifier = true ∧ identifier ∉ CSharp.keywords ∧
    deriveIdentifier identifier = identifier := by
  intro identifier
  have hform : IdentifierForm identifier.toList := identifierForm_deriveIdentifier key
  refine ⟨?_, ?_, hform, CSharp.isIdentifier_of_form hform, CSharp.not_mem_keywords hform,
    deriveIdentifier_eq_self_iff.mpr hform⟩
  · rw [← capitalize_collapse_eq]
    rfl
  · rw [dropTrailing_closeGaps]
    rfl

example : deriveIdentifier "2fa--enabled\n" = "_2faEnabled" := by decide

end JsonShape
