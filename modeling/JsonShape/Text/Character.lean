import JsonShape.Text.Category.Letter
import JsonShape.Text.Category.Mark
import JsonShape.Text.Category.Unprintable

/-!
# Characters

The categories of characters, the code units of escaped text, and the text that a message quotes.

Which characters separate, start and continue a name, or have a glyph: each class joins an ASCII part,
written out, with a Unicode 14 table for the rest.

An escape `\uXXXX` in a string gives a UTF-16 code unit. Two units that form a surrogate pair stand for
one character. A surrogate without its partner is no character of its own. It becomes the private
character U+10F800 plus its number among the surrogates, which keeps it apart from other surrogates, but
not from that private character itself, should a document hold it.

A message quotes a text that it complains about in single quotes, unless the text holds a single and no
double quote; the backslash and the quote used are escaped, and so is every unprintable character.
-/

namespace JsonShape.Text

/-! ### Categories -/

/-- Membership of a code point in a table of closed ranges. -/
def inRanges (table : List (Nat × Nat)) (n : Nat) : Bool :=
  table.any fun (low, high) => low ≤ n && n ≤ high

/-- The spaces of Unicode's category Zs. -/
def isSpaceSeparator (c : Char) : Bool :=
  let n := c.toNat
  n == 0x20 || n == 0xA0 || n == 0x1680 || (0x2000 ≤ n && n ≤ 0x200A) || n == 0x202F ||
    n == 0x205F || n == 0x3000

/-- The characters that a name may start with: letters, letter numbers, `$` and `_`. -/
def startsName (c : Char) : Bool :=
  if c.toNat < 0x80 then c.isAlpha || c == '$' || c == '_' else inRanges letterRanges c.toNat

/-- The characters that a name may go on with: those it may start with, digits, marks, connectors
and the two zero-width joiners. -/
def continuesName (c : Char) : Bool :=
  startsName c || c.isDigit ||
    (0x80 ≤ c.toNat &&
      (inRanges markRanges c.toNat || c.toNat == 0x200C || c.toNat == 0x200D))

/-- The characters that have a glyph of their own, and the plain space. -/
def isPrintable (c : Char) : Bool :=
  if c.toNat < 0x80 then 0x20 ≤ c.toNat && c.toNat < 0x7F
  else !inRanges unprintableRanges c.toNat

/-! ### Code units -/

/-- The first half of a surrogate pair. -/
def isHighSurrogate (u : Nat) : Bool := 0xD800 ≤ u && u ≤ 0xDBFF

/-- The second half of a surrogate pair. -/
def isLowSurrogate (u : Nat) : Bool := 0xDC00 ≤ u && u ≤ 0xDFFF

/-- The character of one code unit or code point. -/
def unitChar (u : Nat) : Char :=
  if isHighSurrogate u || isLowSurrogate u then Char.ofNat (0x10F800 + (u - 0xD800))
  else Char.ofNat u

/-- The character of a surrogate pair. -/
def pairChar (high low : Nat) : Char :=
  Char.ofNat (0x10000 + (high - 0xD800) * 0x400 + (low - 0xDC00))

/-- The characters of a list of code units, with surrogate pairs joined. -/
def joinPairs : List Nat → List Char
  | [] => []
  | [u] => [unitChar u]
  | u :: v :: rest =>
    if isHighSurrogate u && isLowSurrogate v then pairChar u v :: joinPairs rest
    else unitChar u :: joinPairs (v :: rest)

/-- The value of a hexadecimal digit. -/
def hexValue? (c : Char) : Option Nat :=
  if '0' ≤ c && c ≤ '9' then some (c.toNat - '0'.toNat)
  else if 'a' ≤ c && c ≤ 'f' then some (c.toNat - 'a'.toNat + 10)
  else if 'A' ≤ c && c ≤ 'F' then some (c.toNat - 'A'.toNat + 10)
  else none

/-- The number that hexadecimal digits write, unless one of the characters is none. -/
def hexNumber? (digits : List Char) : Option Nat :=
  digits.foldlM (fun n c => (n * 16 + ·) <$> hexValue? c) 0

/-! ### Quoted text -/

/-- A number below 16 as a hexadecimal digit, with small letters. -/
def hexDigit (n : Nat) : Char :=
  if n < 10 then Char.ofNat ('0'.toNat + n) else Char.ofNat ('a'.toNat + (n - 10))

/-- The lowest `width` hexadecimal digits of a number. -/
def hexDigits : (width : Nat) → Nat → List Char
  | 0, _ => []
  | width + 1, n => hexDigits width (n / 16) ++ [hexDigit (n % 16)]

/-- One character between quotes `q`. -/
def quotedChar (q c : Char) : List Char :=
  if c == '\\' || c == q then ['\\', c]
  else if c == '\t' then ['\\', 't']
  else if c == '\n' then ['\\', 'n']
  else if c == '\r' then ['\\', 'r']
  else if isPrintable c then [c]
  else if c.toNat < 0x100 then '\\' :: 'x' :: hexDigits 2 c.toNat
  else if c.toNat < 0x10000 then '\\' :: 'u' :: hexDigits 4 c.toNat
  else '\\' :: 'U' :: hexDigits 8 c.toNat

/-- The quote that a text is put in. -/
def quoteFor (s : List Char) : Char :=
  if s.contains '\'' && !s.contains '"' then '"' else '\''

/-- A text as messages quote it. -/
def quoted (s : String) : String :=
  let q := quoteFor s.toList
  String.ofList (q :: s.toList.flatMap (quotedChar q) ++ [q])

end JsonShape.Text
