import JsonShape.Value
import Mathlib.Data.Nat.Digits.Defs

/-!
# The grammar of documents

RFC 8259 as relations between a text and what it stands for, one for each part of the grammar: blanks,
numbers, strings, and the values with the parts of arrays and objects. They say nothing about how a text
is read. With a value come two numbers, since readers have limits on them: how many digits the longest
integer in the text has, and how deep brackets nest in it.

A number without a fraction and an exponent is an integer, and any other the decimal that it writes. The text
of a string stands for UTF-16 code units, as its escapes do; from these come the characters.
-/

namespace JsonShape.Grammar

/-- Blanks between tokens: spaces, tabs, line feeds and carriage returns. -/
def Blanks (s : List Char) : Prop := ∀ c ∈ s, c = ' ' ∨ c = '\t' ∨ c = '\n' ∨ c = '\r'

/-! ### Numbers -/

/-- One or more decimal digits. -/
def Digits (s : List Char) : Prop := s ≠ [] ∧ ∀ c ∈ s, c.isDigit = true

/-- The natural that decimal digits write; the last digit counts ones. -/
def natOf (digits : List Char) : Nat :=
  Nat.ofDigits 10 (digits.reverse.map fun c => c.toNat - '0'.toNat)

/-- A natural with a sign. -/
def signed (negative : Bool) (n : Nat) : Int := if negative then -n else n

/-- The sign of a number: a minus or nothing. -/
inductive Minus : List Char → Bool → Prop
  | absent : Minus [] false
  | minus : Minus ['-'] true

/-- The digits of a number in front of its fraction: a zero, or digits of which the first is none. -/
def Whole (s : List Char) : Prop := s = ['0'] ∨ Digits s ∧ s.head? ≠ some '0'

/-- A fraction with its digits, or nothing. -/
inductive Fraction : List Char → Option (List Char) → Prop
  | absent : Fraction [] none
  | point {digits : List Char} (h : Digits digits) : Fraction ('.' :: digits) (some digits)

/-- The sign of an exponent. -/
inductive Sign : List Char → Bool → Prop
  | absent : Sign [] false
  | plus : Sign ['+'] false
  | minus : Sign ['-'] true

/-- An exponent, or nothing. -/
inductive Exponent : List Char → Option Int → Prop
  | absent : Exponent [] none
  | marked {c : Char} {s digits : List Char} {negative : Bool} (hc : c = 'e' ∨ c = 'E')
      (hs : Sign s negative) (h : Digits digits) :
      Exponent (c :: (s ++ digits)) (some (signed negative (natOf digits)))

/-- The decimal with the given sign, digits before and after the point, and exponent. -/
def decimal (negative : Bool) (whole fraction : List Char) (exponent : Int) : Decimal :=
  .finite negative (natOf (whole ++ fraction)) (exponent - fraction.length)

/-! ### Strings -/

/-- The letters that a backslash may stand before, with what they stand for then. -/
def escapes : List (Char × Char) :=
  [('"', '"'), ('\\', '\\'), ('/', '/'), ('b', '\x08'), ('f', '\x0c'), ('n', '\n'), ('r', '\r'),
    ('t', '\t')]

/-- A hexadecimal digit, small or capital, and its value. -/
def HexDigit (c : Char) (d : Nat) : Prop :=
  "0123456789abcdef".toList[d]? = some c ∨ "0123456789ABCDEF".toList[d]? = some c

instance (c : Char) (d : Nat) : Decidable (HexDigit c d) := inferInstanceAs (Decidable (_ ∨ _))

/-- What stands between the quotes of a string, and its code units. A character that needs no escape is
one unit, also beyond the basic plane. -/
inductive Units : List Char → List Nat → Prop
  | nil : Units [] []
  | plain {c : Char} {s : List Char} {us : List Nat} (hquote : c ≠ '"') (hslash : c ≠ '\\')
      (hcontrol : 0x1F < c.toNat) (h : Units s us) : Units (c :: s) (c.toNat :: us)
  | escape {e c : Char} {s : List Char} {us : List Nat} (hc : (e, c) ∈ escapes) (h : Units s us) :
      Units ('\\' :: e :: s) (c.toNat :: us)
  | unicode {h₁ h₂ h₃ h₄ : Char} {d₁ d₂ d₃ d₄ : Nat} {s : List Char} {us : List Nat}
      (hd₁ : HexDigit h₁ d₁) (hd₂ : HexDigit h₂ d₂) (hd₃ : HexDigit h₃ d₃) (hd₄ : HexDigit h₄ d₄)
      (h : Units s us) :
      Units ('\\' :: 'u' :: h₁ :: h₂ :: h₃ :: h₄ :: s) ((((d₁ * 16 + d₂) * 16 + d₃) * 16 + d₄) :: us)

/-- The first half of a surrogate pair. -/
def High (u : Nat) : Prop := 0xD800 ≤ u ∧ u ≤ 0xDBFF

/-- The second half of a surrogate pair. -/
def Low (u : Nat) : Prop := 0xDC00 ≤ u ∧ u ≤ 0xDFFF

/-- The characters of code units. The halves of a surrogate pair are joined. The grammar also allows half of
a pair alone, which a character for private use stands for. -/
inductive Joined : List Nat → List Char → Prop
  | nil : Joined [] []
  | char (c : Char) {us : List Nat} {cs : List Char} (h : Joined us cs) : Joined (c.toNat :: us) (c :: cs)
  | pair {high low : Nat} {c : Char} {us : List Nat} {cs : List Char} (hhigh : High high) (hlow : Low low)
      (hc : c.toNat = 0x10000 + (high - 0xD800) * 0x400 + (low - 0xDC00)) (h : Joined us cs) :
      Joined (high :: low :: us) (c :: cs)
  | alone {u : Nat} {c : Char} {us : List Nat} {cs : List Char} (hu : High u ∨ Low u)
      (hpair : High u → ∀ v ∈ us.head?, ¬Low v) (hc : c.toNat = 0x10F800 + (u - 0xD800))
      (h : Joined us cs) : Joined (u :: us) (c :: cs)

/-- A string with its quotes, and the text that it stands for. -/
inductive Quoted : List Char → String → Prop
  | mk {s : List Char} {us : List Nat} {text : String} (hs : Units s us) (hus : Joined us text.toList) :
      Quoted ('"' :: (s ++ ['"'])) text

/-! ### Values -/

/-- The members of an object: each key once, in the order in which the keys first come, with the value
that comes last for it. -/
def settled (members : List (String × Value)) : List (Key × Value) :=
  (members.map (·.1)).eraseDups.filterMap fun key =>
    (members.reverse.lookup key).map fun v => (.text key, v)

/-- One or more parts with commas between them. Of the numbers that come with parts, a list has the
greatest. -/
inductive Listed {α : Type} (Part : List Char → α → Nat → Nat → Prop) :
    List Char → List α → Nat → Nat → Prop
  | single {s : List Char} {a : α} {d n : Nat} (h : Part s a d n) : Listed Part s [a] d n
  | cons {s w w' t : List Char} {a : α} {as : List α} {d n e m : Nat} (h : Part s a d n) (hw : Blanks w)
      (hw' : Blanks w') (ht : Listed Part t as e m) :
      Listed Part (s ++ (w ++ ',' :: (w' ++ t))) (a :: as) (max d e) (max n m)

mutual
/-- A text is a value. Its longest integer has so many digits, and its brackets nest so deep; members whose
value the object does not keep count, too. -/
inductive Derives : List Char → Value → Nat → Nat → Prop
  | null : Derives ['n', 'u', 'l', 'l'] .null 0 0
  | true : Derives ['t', 'r', 'u', 'e'] (.bool true) 0 0
  | false : Derives ['f', 'a', 'l', 's', 'e'] (.bool false) 0 0
  | int {sign whole : List Char} {negative : Bool} (hsign : Minus sign negative) (hwhole : Whole whole) :
      Derives (sign ++ whole) (.int (signed negative (natOf whole))) whole.length 0
  | decimal {sign whole f e : List Char} {negative : Bool} {fraction : Option (List Char)}
      {exponent : Option Int} (hsign : Minus sign negative) (hwhole : Whole whole)
      (hf : Fraction f fraction) (he : Exponent e exponent) (hsome : fraction ≠ none ∨ exponent ≠ none) :
      Derives (sign ++ (whole ++ (f ++ e)))
        (.float (decimal negative whole (fraction.getD []) (exponent.getD 0))) 0 0
  | str {s : List Char} {text : String} (h : Quoted s text) : Derives s (.str text) 0 0
  | emptyArr {w : List Char} (hw : Blanks w) : Derives ('[' :: (w ++ [']'])) (.arr []) 0 1
  | arr {w s w' : List Char} {items : List Value} {d n : Nat} (hw : Blanks w)
      (h : Listed Derives s items d n) (hw' : Blanks w') :
      Derives ('[' :: (w ++ (s ++ (w' ++ [']'])))) (.arr items) d (n + 1)
  | emptyObj {w : List Char} (hw : Blanks w) : Derives ('{' :: (w ++ ['}'])) (.obj []) 0 1
  | obj {w s w' : List Char} {members : List (String × Value)} {d n : Nat} (hw : Blanks w)
      (h : Listed Member s members d n) (hw' : Blanks w') :
      Derives ('{' :: (w ++ (s ++ (w' ++ ['}'])))) (.obj (settled members)) d (n + 1)
/-- A text is a member of an object: its key, a colon and its value. -/
inductive Member : List Char → String × Value → Nat → Nat → Prop
  | mk {k w w' s : List Char} {key : String} {v : Value} {d n : Nat} (hkey : Quoted k key) (hw : Blanks w)
      (hw' : Blanks w') (h : Derives s v d n) : Member (k ++ (w ++ ':' :: (w' ++ s))) (key, v) d n
end

/-- A text is a document: a value with blanks around it. -/
inductive Document : List Char → Value → Nat → Nat → Prop
  | mk {w s w' : List Char} {v : Value} {d n : Nat} (hw : Blanks w) (h : Derives s v d n) (hw' : Blanks w') :
      Document (w ++ (s ++ w')) v d n

/-- A text is what a relation says, with integers of no more than so many digits and brackets that nest no
deeper than so many levels. -/
def Within {α : Type} (Part : List Char → α → Nat → Nat → Prop) (digits levels : Nat) (s : List Char) (a : α) :
    Prop :=
  ∃ d n, Part s a d n ∧ d ≤ digits ∧ n ≤ levels

end JsonShape.Grammar
