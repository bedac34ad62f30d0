/-!
# The layout of a text

Line ends, positions and the blanks around a text.

A text file may end its lines with a carriage return, a line feed or both in this order; a text read
from it ends them with a line feed. A position counts lines and columns from one, and a line ends with
each line feed. Of the two classes of blank characters, `isWhiteSpace` is Unicode's property White_Space;
`isBlank` adds the four information separators U+001C to U+001F.
-/

namespace JsonShape.Text

/-! ### Line ends -/

/-- A text with every line end written as a line feed. -/
def unifyLineEnds : List Char → List Char
  | [] => []
  | '\r' :: '\n' :: rest => '\n' :: unifyLineEnds rest
  | '\r' :: rest => '\n' :: unifyLineEnds rest
  | c :: rest => c :: unifyLineEnds rest

/-! ### Positions -/

/-- A place in a text: the offset in characters, and its line and column. -/
structure Position where
  line : Nat
  column : Nat
  offset : Nat
  deriving DecidableEq, Repr

/-- The position of an offset. The line counts the line feeds before it; the column counts the
characters since the last of them. -/
def Position.ofOffset (text : List Char) (offset : Nat) : Position :=
  let before := text.take offset
  { line := before.count '\n' + 1
    column := (before.reverse.takeWhile (· ≠ '\n')).length + 1
    offset }

/-- A position as messages name it. -/
def Position.describe (p : Position) : String :=
  s!"line {p.line} column {p.column} (char {p.offset})"

/-! ### Blanks -/

/-- Unicode's property White_Space. -/
def isWhiteSpace (c : Char) : Bool :=
  let n := c.toNat
  (0x09 ≤ n && n ≤ 0x0D) || n == 0x20 || n == 0x85 || n == 0xA0 || n == 0x1680 ||
    (0x2000 ≤ n && n ≤ 0x200A) || n == 0x2028 || n == 0x2029 || n == 0x202F || n == 0x205F ||
    n == 0x3000

/-- The characters that are blank at the ends of a name: white space and the information
separators. -/
def isBlank (c : Char) : Bool :=
  isWhiteSpace c || (0x1C ≤ c.toNat && c.toNat ≤ 0x1F)

/-- A text without the characters of a class at its ends. -/
def trim (blank : Char → Bool) (s : List Char) : List Char :=
  ((s.dropWhile blank).reverse.dropWhile blank).reverse

/-- A text without the blanks at its ends. -/
def strip (s : String) : String :=
  String.ofList (trim isBlank s.toList)

end JsonShape.Text
