import JsonShape.Document
import JsonShape.Proofs.Document.Escapes

/-!
# The grammar of lenient documents

JSON5 as relations between a text and what it stands for, in the way of the strict grammar, with which it
shares digits, exponents and what the members of an object come to. Comments are blanks; strings have single or
double quotes and more escapes, and go on behind an escaped line end; keys may be names; numbers may have any
sign, no digits on one side of the point, or sixteen for a base; a comma may stand behind the last part of a list.

The specification leaves open what an escape for half of a surrogate pair means, so that the relations say
nothing of a text with one. A decoder that follows the grammar may do as it likes with the texts of which the
relations say nothing.
-/

namespace JsonShape.Json5

open Grammar (Digits Exponent Half HexDigit Sign Whole)

/-! ### Blanks and comments -/

/-- The characters that end a line. -/
def LineEnd (c : Char) : Prop := c = '\n' ∨ c = '\r' ∨ c = '\u2028' ∨ c = '\u2029'

/-- The blank characters. -/
def Space (c : Char) : Prop :=
  LineEnd c ∨ c = '\t' ∨ c = '\x0b' ∨ c = '\x0c' ∨ c = '\uFEFF' ∨ Text.isSpaceSeparator c = true

/-- A comment over any number of lines, without its opening: it ends with the first asterisk that a slash comes
after. -/
inductive Block : List Char → Prop
  | close : Block ['*', '/']
  | cons {c : Char} {s : List Char} (hc : ¬(c = '*' ∧ s.head? = some '/')) (h : Block s) : Block (c :: s)

/-- Blanks and comments between tokens. -/
inductive Gap : List Char → Prop
  | nil : Gap []
  | space {c : Char} {s : List Char} (hc : Space c) (h : Gap s) : Gap (c :: s)
  | block {b s : List Char} (hb : Block b) (h : Gap s) : Gap ('/' :: '*' :: (b ++ s))
  | line {l s : List Char} {c : Char} (hl : ∀ x ∈ l, ¬LineEnd x) (hc : LineEnd c) (h : Gap s) :
      Gap ('/' :: '/' :: (l ++ c :: s))

/-- Blanks and comments at the end of a text, of which the last may be a comment on a line that does not end. -/
inductive Final : List Char → Prop
  | gap {w : List Char} (hw : Gap w) : Final w
  | line {w l : List Char} (hw : Gap w) (hl : ∀ x ∈ l, ¬LineEnd x) : Final (w ++ '/' :: '/' :: l)

/-! ### Strings and names -/

/-- The letters that a backslash may stand before and that then stand for something else. -/
def escapes : List (Char × Char) :=
  [('b', '\x08'), ('f', '\x0c'), ('n', '\n'), ('r', '\r'), ('t', '\t'), ('v', '\x0b')]

/-- A character that stands for itself behind a backslash: no other escape starts with it. -/
def Verbatim (c : Char) : Prop :=
  c ≠ 'x' ∧ c ≠ 'u' ∧ c.isDigit = false ∧ ¬LineEnd c ∧ ∀ e ∈ escapes, e.1 ≠ c

/-- Four hexadecimal digits, and the character that has their number. -/
inductive CodeUnit : List Char → Char → Prop
  | mk {h₁ h₂ h₃ h₄ : Char} {d₁ d₂ d₃ d₄ : Nat} (hd₁ : HexDigit h₁ d₁) (hd₂ : HexDigit h₂ d₂)
      (hd₃ : HexDigit h₃ d₃) (hd₄ : HexDigit h₄ d₄) (hhalf : ¬Half (((d₁ * 16 + d₂) * 16 + d₃) * 16 + d₄)) :
      CodeUnit [h₁, h₂, h₃, h₄] (Char.ofNat (((d₁ * 16 + d₂) * 16 + d₃) * 16 + d₄))

/-- What stands between two quotes, and the characters that it stands for. -/
inductive Chars (quote : Char) : List Char → List Char → Prop
  | nil : Chars quote [] []
  | plain {c : Char} {s cs : List Char} (hquote : c ≠ quote) (hslash : c ≠ '\\') (hline : c ≠ '\n' ∧ c ≠ '\r')
      (h : Chars quote s cs) : Chars quote (c :: s) (c :: cs)
  | escape {e c : Char} {s cs : List Char} (hc : (e, c) ∈ escapes) (h : Chars quote s cs) :
      Chars quote ('\\' :: e :: s) (c :: cs)
  | verbatim {c : Char} {s cs : List Char} (hc : Verbatim c) (h : Chars quote s cs) :
      Chars quote ('\\' :: c :: s) (c :: cs)
  | null {s cs : List Char} (hs : ∀ c ∈ s.head?, c.isDigit = false) (h : Chars quote s cs) :
      Chars quote ('\\' :: '0' :: s) ('\x00' :: cs)
  | hexadecimal {h₁ h₂ : Char} {d₁ d₂ : Nat} {s cs : List Char} (hd₁ : HexDigit h₁ d₁) (hd₂ : HexDigit h₂ d₂)
      (h : Chars quote s cs) : Chars quote ('\\' :: 'x' :: h₁ :: h₂ :: s) (Char.ofNat (d₁ * 16 + d₂) :: cs)
  | unicode {u s cs : List Char} {c : Char} (hu : CodeUnit u c) (h : Chars quote s cs) :
      Chars quote ('\\' :: 'u' :: (u ++ s)) (c :: cs)
  | continued {c : Char} {s cs : List Char} (hc : LineEnd c) (h : Chars quote s cs) :
      Chars quote ('\\' :: c :: s) cs
  | continuedPair {s cs : List Char} (h : Chars quote s cs) : Chars quote ('\\' :: '\r' :: '\n' :: s) cs

/-- A string with its quotes, and the text that it stands for. -/
inductive Quoted : List Char → String → Prop
  | mk {quote : Char} {s : List Char} {text : String} (hquote : quote = '"' ∨ quote = '\'')
      (h : Chars quote s text.toList) : Quoted (quote :: (s ++ [quote])) text

/-- A character of a name, which has to pass a test also where it is escaped. -/
inductive NameChar (test : Char → Bool) : List Char → Char → Prop
  | plain {c : Char} (hc : test c = true) : NameChar test [c] c
  | unicode {u : List Char} {c : Char} (hu : CodeUnit u c) (hc : test c = true) : NameChar test ('\\' :: 'u' :: u) c

/-- What a name goes on with behind its first character. -/
inductive NameTail : List Char → List Char → Prop
  | nil : NameTail [] []
  | cons {t s cs : List Char} {c : Char} (hc : NameChar Text.continuesName t c) (h : NameTail s cs) :
      NameTail (t ++ s) (c :: cs)

/-- The key of a member: a string or a name. -/
inductive Key : List Char → String → Prop
  | quoted {s : List Char} {text : String} (h : Quoted s text) : Key s text
  | name {t s cs : List Char} {c : Char} (hc : NameChar Text.startsName t c) (h : NameTail s cs) :
      Key (t ++ s) (String.ofList (c :: cs))

/-! ### Numbers -/

/-- Hexadecimal digits, and the number that they write in front of so much. -/
inductive HexNumber : Nat → List Char → Nat → Prop
  | nil {n : Nat} : HexNumber n [] n
  | cons {n d m : Nat} {c : Char} {s : List Char} (hd : HexDigit c d) (h : HexNumber (n * 16 + d) s m) :
      HexNumber n (c :: s) m

/-- A number behind its sign, and how many digits it has as a decimal integer. -/
inductive Number (negative : Bool) : List Char → Value → Nat → Prop
  | int {whole : List Char} (h : Whole whole) :
      Number negative whole (.int (Grammar.signed negative (Grammar.natOf whole))) whole.length
  | point {whole digits e : List Char} {x : Option Int} (hwhole : Whole whole)
      (hdigits : ∀ c ∈ digits, c.isDigit = true) (he : Exponent e x) :
      Number negative (whole ++ '.' :: (digits ++ e))
        (.float (Grammar.decimal negative whole digits (x.getD 0))) 0
  | pointFirst {digits e : List Char} {x : Option Int} (hdigits : Digits digits) (he : Exponent e x) :
      Number negative ('.' :: (digits ++ e)) (.float (Grammar.decimal negative [] digits (x.getD 0))) 0
  | exponent {whole e : List Char} {x : Int} (hwhole : Whole whole) (he : Exponent e (some x)) :
      Number negative (whole ++ e) (.float (Grammar.decimal negative whole [] x)) 0
  | hexadecimal {x : Char} {digits : List Char} {n : Nat} (hx : x = 'x' ∨ x = 'X') (hdigits : digits ≠ [])
      (h : HexNumber 0 digits n) : Number negative ('0' :: x :: digits) (.int (Grammar.signed negative n)) 0
  | infinity : Number negative "Infinity".toList (.float (.infinity negative)) 0
  | nan : Number negative "NaN".toList (.float .nan) 0

/-! ### Values -/

/-- One or more parts with commas between them. -/
inductive Listed {α : Type} (Part : List Char → α → Nat → Nat → Prop) :
    List Char → List α → Nat → Nat → Prop
  | single {s : List Char} {a : α} {d n : Nat} (h : Part s a d n) : Listed Part s [a] d n
  | cons {s w w' t : List Char} {a : α} {as : List α} {d n e m : Nat} (h : Part s a d n) (hw : Gap w)
      (hw' : Gap w') (ht : Listed Part t as e m) :
      Listed Part (s ++ (w ++ ',' :: (w' ++ t))) (a :: as) (max d e) (max n m)

/-- What may stand between the last part of a list and the closing bracket. -/
inductive Ending : List Char → Prop
  | gap {w : List Char} (hw : Gap w) : Ending w
  | comma {w w' : List Char} (hw : Gap w) (hw' : Gap w') : Ending (w ++ ',' :: w')

mutual
/-- A text is a value. Its longest decimal integer has so many digits, and its brackets nest so deep. -/
inductive Derives : List Char → Value → Nat → Nat → Prop
  | null : Derives ['n', 'u', 'l', 'l'] .null 0 0
  | true : Derives ['t', 'r', 'u', 'e'] (.bool true) 0 0
  | false : Derives ['f', 'a', 'l', 's', 'e'] (.bool false) 0 0
  | number {sign s : List Char} {negative : Bool} {v : Value} {d : Nat} (hsign : Sign sign negative)
      (h : Number negative s v d) : Derives (sign ++ s) v d 0
  | str {s : List Char} {text : String} (h : Quoted s text) : Derives s (.str text) 0 0
  | emptyArr {w : List Char} (hw : Gap w) : Derives ('[' :: (w ++ [']'])) (.arr []) 0 1
  | arr {w s w' : List Char} {items : List Value} {d n : Nat} (hw : Gap w) (h : Listed Derives s items d n)
      (hw' : Ending w') : Derives ('[' :: (w ++ (s ++ (w' ++ [']'])))) (.arr items) d (n + 1)
  | emptyObj {w : List Char} (hw : Gap w) : Derives ('{' :: (w ++ ['}'])) (.obj []) 0 1
  | obj {w s w' : List Char} {members : List (String × Value)} {d n : Nat} (hw : Gap w)
      (h : Listed Member s members d n) (hw' : Ending w') :
      Derives ('{' :: (w ++ (s ++ (w' ++ ['}'])))) (.obj (Grammar.settled members)) d (n + 1)
/-- A text is a member of an object: its key, a colon and its value. -/
inductive Member : List Char → String × Value → Nat → Nat → Prop
  | mk {k w w' s : List Char} {key : String} {v : Value} {d n : Nat} (hkey : Key k key) (hw : Gap w)
      (hw' : Gap w') (h : Derives s v d n) : Member (k ++ (w ++ ':' :: (w' ++ s))) (key, v) d n
end

/-- A text is a document: a value with blanks and comments around it. -/
inductive Document : List Char → Value → Nat → Nat → Prop
  | mk {w s w' : List Char} {v : Value} {d n : Nat} (hw : Gap w) (h : Derives s v d n) (hw' : Final w') :
      Document (w ++ (s ++ w')) v d n

end JsonShape.Json5

namespace JsonShape

/-- A decoder follows the grammar on the texts that nest no deeper than so many levels: it decodes each document
as the value that it stands for, unless an integer has more digits than an integer may have. -/
def Json5Decoder.Follows [Json5Decoder] (levels : Nat) : Prop :=
  ∀ text v, Grammar.Within Json5.Document maxIntegerDigits levels text v → Json5Decoder.decode text = .ok v

end JsonShape
