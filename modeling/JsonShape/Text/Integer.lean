import JsonShape.Text.Layout

/-!
# Integers as users write them

A reader for the integers that settings and arguments give as text. Inside white space stand a sign and
ASCII digits. It is lenient about what surrounds the digits: zeros in front with any underscores among
them, before and behind a minus, single underscores between digits, and a fraction of zeros behind.
-/

namespace JsonShape.Text

/-- The most digits of an integer. -/
def maxDigits : Nat := 4300

/-- A text without a plus in front. A minus may not follow the plus. -/
def dropPlus? : List Char → Option (List Char)
  | '+' :: '-' :: _ => none
  | '+' :: rest => some rest
  | s => some s

/-- Whether a character is a decimal digit from one up. -/
def isPositiveDigit (c : Char) : Bool := '1' ≤ c && c ≤ '9'

/-- A text without the zeros in front, and without the underscores among and after them. The last of
these characters stays if nothing or a point follows it. -/
def dropLeadingZeros? : List Char → Option (List Char)
  | [] => none
  | c :: rest =>
    let padding := fun x => x = '0' || x = '_'
    if c = '0' then
      let last := ((rest.takeWhile padding).getLast?).getD c
      match rest.dropWhile padding with
      | [] => some [last]
      | d :: tail =>
        if d = '.' then some (last :: d :: tail)
        else if isPositiveDigit d || d = '-' then some (d :: tail)
        else none
    else if isPositiveDigit c || c = '-' then some (c :: rest)
    else none

/-- What a function makes of a text behind its minus, or of the whole text without one. No sign may follow
the minus. -/
def behindMinus? (f : List Char → Option (List Char)) : List Char → Option (List Char)
  | '-' :: '-' :: _ => none
  | '-' :: '+' :: _ => none
  | '-' :: rest => (f rest).map ('-' :: ·)
  | s => f s

/-- A text without its fraction, which must be of one or more zeros. -/
def dropZeroFraction? (s : List Char) : Option (List Char) :=
  match s.dropWhile (· ≠ '.') with
  | [] => some s
  | _ :: fraction =>
    if !fraction.isEmpty && fraction.all (· = '0') then some (s.takeWhile (· ≠ '.')) else none

/-- Whether two underscores follow each other. -/
def hasDoubleUnderscore : List Char → Bool
  | '_' :: '_' :: _ => true
  | _ :: rest => hasDoubleUnderscore rest
  | [] => false

/-- A text without its underscores. None may be at an end or next to another. -/
def dropUnderscores? (s : List Char) : Option (List Char) :=
  if s.head? = some '_' || s.getLast? = some '_' || hasDoubleUnderscore s then none
  else some (s.filter (· ≠ '_'))

/-- The integer of a plain decimal text: a minus or nothing, then a single zero or digits of which the
first is no zero. The text has at most as many characters as an integer may have digits. -/
def plainInt? (s : List Char) : Option Int :=
  let (negative, digits) :=
    match s with
    | '-' :: rest => (true, rest)
    | rest => (false, rest)
  let plain := digits = ['0'] || digits.head?.any isPositiveDigit
  if plain && digits.all Char.isDigit && s.length ≤ maxDigits then
    let n := digits.foldl (fun n c => n * 10 + (c.toNat - '0'.toNat)) 0
    some (if negative then -(n : Int) else n)
  else none

/-- The integer that a text gives. -/
def givenInt? (s : String) : Option Int :=
  (dropPlus? (trim isWhiteSpace s.toList)).bind fun s =>
  (behindMinus? dropLeadingZeros? s).bind fun s =>
  (dropZeroFraction? s).bind fun s =>
  (dropUnderscores? s).bind plainInt?

end JsonShape.Text
