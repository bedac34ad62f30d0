import JsonShape.Decimal

/-!
# Words, signs and digits of a text

What both document readers share: each function takes what is left of a text and gives what it found
and what is left after it.
-/

namespace JsonShape.Scan

/-- What is left after a word, if the text starts with it. -/
def after? : (word s : List Char) → Option (List Char)
  | [], s => some s
  | _ :: _, [] => none
  | w :: word, c :: s => if w = c then after? word s else none

/-- A sign, as whether it is negative, and what is left after it. -/
def sign (s : List Char) : Bool × List Char :=
  match s with
  | '-' :: rest => (true, rest)
  | '+' :: rest => (false, rest)
  | _ => (false, s)

/-- The integer with a sign and decimal digits. -/
def signed (negative : Bool) (digits : List Char) : Int :=
  let n : Int := Decimal.digitsValue 0 digits
  if negative then -n else n

end JsonShape.Scan
