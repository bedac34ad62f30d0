/-!
# Numbers with a fraction or an exponent

A number literal that is no integer, kept as it was written: a sign, the digits as one natural number
and a power of ten, or one of the named constants. `Decimal.round?` gives the nearest binary64 number,
which is what the number counts as where its value matters.
-/

namespace JsonShape

/-- A number that is not written as an integer. -/
inductive Decimal
  | finite (negative : Bool) (digits : Nat) (exponent : Int)
  | infinity (negative : Bool)
  | nan
  deriving DecidableEq, Repr

namespace Decimal

/-- The number that a run of decimal digits denotes, after the digits read before. -/
def digitsValue (before : Nat) (digits : List Char) : Nat :=
  digits.foldl (fun n c => n * 10 + (c.toNat - '0'.toNat)) before

/-- The decimal with the given integral and fractional digits and the exponent written after them. -/
def ofParts (negative : Bool) (whole fraction : List Char) (exponent : Int) : Decimal :=
  .finite negative (digitsValue 0 (whole ++ fraction)) (exponent - fraction.length)

/-! ### Rounding to binary64 -/

/-- A finite binary64 number: `significand * 2 ^ exponent`, negative or not. -/
structure Binary where
  negative : Bool
  significand : Nat
  exponent : Int
  deriving DecidableEq, Repr

/-- The quotient of two naturals rounded to the nearest natural, a half to the even one. -/
def roundDiv (n d : Nat) : Nat :=
  let q := n / d
  let twice := 2 * (n % d)
  if twice < d then q else if d < twice then q + 1 else q + q % 2

/-- The ratio `n / d` times `2 ^ (-e)`, as a numerator and a denominator. -/
def scale (n d : Nat) (e : Int) : Nat × Nat :=
  if 0 ≤ e then (n, d * Nat.pow 2 e.toNat) else (n * Nat.pow 2 (-e).toNat, d)

/-- The power of two at which the integral part of a positive ratio has 53 binary digits, or the least
power of a subnormal number. The guess is at most one too large. -/
def binaryExponent (n d : Nat) : Int :=
  let guess : Int := (n.log2 : Int) - d.log2 - 52
  let (top, bottom) := scale n d guess
  max (if top < Nat.pow 2 52 * bottom then guess - 1 else guess) (-1074)

/-- The binary64 number nearest to a ratio of naturals, unless it is too large for one. -/
def ratioRound? (negative : Bool) (n d : Nat) : Option Binary :=
  if n = 0 then some ⟨negative, 0, 0⟩
  else
    let e := binaryExponent n d
    let (top, bottom) := scale n d e
    let m := roundDiv top bottom
    if e + m.log2 < 1024 then some ⟨negative, m, e⟩ else none

/-- The count of decimal digits of a natural, at least one. -/
def digitCount (n : Nat) : Nat := (Nat.toDigits 10 n).length

/-- The nearest binary64 number, unless the decimal is not finite or too large for one. -/
def round? : Decimal → Option Binary
  | .finite negative digits exponent =>
    if digits = 0 || exponent + digitCount digits < -400 then some ⟨negative, 0, 0⟩
    else if 400 < exponent + digitCount digits then none
    else if 0 ≤ exponent then ratioRound? negative (digits * Nat.pow 10 exponent.toNat) 1
    else ratioRound? negative digits (Nat.pow 10 (-exponent).toNat)
  | .infinity _ | .nan => none

/-- The integer that a binary64 number is, unless it has a fraction. -/
def Binary.toInt? (b : Binary) : Option Int :=
  let sign (n : Nat) : Int := if b.negative then -(n : Int) else n
  if 0 ≤ b.exponent then some (sign (b.significand * Nat.pow 2 b.exponent.toNat))
  else
    let d := Nat.pow 2 (-b.exponent).toNat
    if b.significand % d = 0 then some (sign (b.significand / d)) else none

/-- The integer that the nearest binary64 number is, unless it has a fraction or there is none. -/
def toInt? (x : Decimal) : Option Int := x.round?.bind Binary.toInt?

end Decimal
end JsonShape
