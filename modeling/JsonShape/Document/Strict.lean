import JsonShape.Document.Problem
import JsonShape.Document.Scan
import JsonShape.Text.Character
import JsonShape.Value

/-!
# Strict documents

A reader for RFC 8259 texts. Each part takes what is left of the text and gives a value and what is left
after it, or a failure with the number of characters that were left where it arose. The nesting of
objects and arrays is bounded by a number of levels, so that the reader is a recursion on the levels;
the loops over members and items are bounded by the length of the text.
-/

namespace JsonShape.Strict

open Scan (after? sign signed)

/-- A failure: a problem with so many characters left, or one that has no place. -/
inductive Failure
  | problem (what : Problem) (left : Nat)
  | constant (name : String)
  | tooManyDigits (count : Nat)
  | tooDeep
  deriving DecidableEq, Repr

/-- The result of reading a part: it and what is left of the text. -/
abbrev Result (α : Type) := Except Failure (α × List Char)

/-- The four blank characters between tokens. -/
def isSpace (c : Char) : Bool := c == ' ' || c == '\t' || c == '\n' || c == '\r'

/-- What is left after blanks. -/
def skipSpace (s : List Char) : List Char := s.dropWhile isSpace

/-! ### Strings -/

/-- The character that a one-letter escape stands for. -/
def escaped? (c : Char) : Option Char :=
  match c with
  | '"' => some '"'
  | '\\' => some '\\'
  | '/' => some '/'
  | 'b' => some '\x08'
  | 'f' => some '\x0c'
  | 'n' => some '\n'
  | 'r' => some '\r'
  | 't' => some '\t'
  | _ => none

/-- A result with a code unit in front. -/
def prepend (u : Nat) (r : Result (List Nat)) : Result (List Nat) :=
  r.map fun (us, rest) => (u :: us, rest)

/-- The code units of a string after its opening quote, of which `opening` characters were left. An
escape of four digits needs a character after it. -/
def readUnits (opening : Nat) : List Char → Result (List Nat)
  | [] => .error (.problem .unterminatedString opening)
  | c :: rest =>
    if c = '"' then .ok ([], rest)
    else if c = '\\' then
      match rest with
      | [] => .error (.problem .unterminatedString opening)
      | e :: rest =>
        if e = 'u' then
          match rest with
          | h₁ :: h₂ :: h₃ :: h₄ :: rest =>
            match Text.hexNumber? [h₁, h₂, h₃, h₄] with
            | some u =>
              if rest.isEmpty then .error (.problem .invalidUnicodeEscape 5)
              else prepend u (readUnits opening rest)
            | none => .error (.problem .invalidUnicodeEscape (rest.length + 5))
          | short => .error (.problem .invalidUnicodeEscape (short.length + 1))
        else match escaped? e with
          | some x => prepend x.toNat (readUnits opening rest)
          | none => .error (.problem .invalidEscape (rest.length + 2))
    else if c.toNat < 0x20 then .error (.problem .controlCharacter (rest.length + 1))
    else prepend c.toNat (readUnits opening rest)

/-- A string after its opening quote. -/
def string (s : List Char) : Result String :=
  (readUnits (s.length + 1) s).map fun (us, rest) => (String.ofList (Text.joinPairs us), rest)

/-! ### Numbers -/

/-- The digits before a fraction: a single zero, or digits of which the first is no zero. -/
def whole? (s : List Char) : Option (List Char × List Char) :=
  match s with
  | [] => none
  | c :: rest =>
    if c = '0' then some (['0'], rest)
    else if c.isDigit then some (c :: rest.takeWhile Char.isDigit, rest.dropWhile Char.isDigit)
    else none

/-- The digits after a point; a point without a digit after it is left alone. -/
def fraction (s : List Char) : Option (List Char) × List Char :=
  match s with
  | '.' :: rest =>
    match rest.takeWhile Char.isDigit with
    | [] => (none, s)
    | digits => (some digits, rest.dropWhile Char.isDigit)
  | _ => (none, s)

/-- An exponent; an `e` without a digit after it and its sign is left alone. -/
def exponent (s : List Char) : Option Int × List Char :=
  match s with
  | [] => (none, s)
  | c :: rest =>
    if c = 'e' || c = 'E' then
      let (negative, rest) := sign rest
      match rest.takeWhile Char.isDigit with
      | [] => (none, s)
      | digits => (some (signed negative digits), rest.dropWhile Char.isDigit)
    else (none, s)

/-- A number after its minus, if it has one; with the minus, `left` characters were left. It is an integer,
or with a fraction or an exponent a decimal. -/
def unsigned (left : Nat) (negative : Bool) (s : List Char) : Result Value :=
  match whole? s with
  | none => .error (.problem .expectingValue left)
  | some (whole, rest) =>
    let (fraction, rest) := fraction rest
    let (exponent, rest) := exponent rest
    match fraction, exponent with
    | none, none =>
      if maxIntegerDigits < whole.length then .error (.tooManyDigits whole.length)
      else .ok (.int (signed negative whole), rest)
    | _, _ =>
      .ok (.float (.ofParts negative whole (fraction.getD []) (exponent.getD 0)), rest)

/-- A number. -/
def number (s : List Char) : Result Value :=
  match s with
  | '-' :: rest => unsigned s.length true rest
  | _ => unsigned s.length false s

/-! ### Values -/

/-- The literals. -/
def literals : List (String × Value) :=
  [("null", .null), ("true", .bool true), ("false", .bool false)]

/-- The constants that are no JSON. -/
def constants : List (String × Value) :=
  [("NaN", .float .nan), ("Infinity", .float (.infinity false)),
   ("-Infinity", .float (.infinity true))]

/-- The first of some words that the text starts with, with its meaning and what is left after it. -/
def word? (words : List (String × Value)) (s : List Char) : Option (String × Value × List Char) :=
  words.findSome? fun (name, v) => (after? name.toList s).map fun rest => (name, v, rest)

/-- A string, literal, constant or number. The flag says whether constants are values. -/
def scalar (named : Bool) (s : List Char) : Result Value :=
  match s with
  | '"' :: rest => (string rest).map fun (text, rest) => (.str text, rest)
  | _ =>
    match word? literals s, word? constants s with
    | some (_, v, rest), _ => .ok (v, rest)
    | none, some (name, v, rest) => if named then .ok (v, rest) else .error (.constant name)
    | none, none => number s

/-- Parts with commas between them, after an opening bracket and blanks and up to the closing bracket. There
are no more than `turns` of them, which the length of the text sees to. -/
def listed {α : Type} (part : List Char → Result α) (close : Char) :
    (turns : Nat) → List Char → Result (List α)
  | 0, s => .error (.problem .expectingComma s.length)
  | turns + 1, s => (part s).bind fun (a, rest) =>
    match skipSpace rest with
    | [] => .error (.problem .expectingComma 0)
    | c :: rest =>
      if c = close then .ok ([a], rest)
      else if c = ',' then
        (listed part close turns (skipSpace rest)).map fun (as, rest) => (a :: as, rest)
      else .error (.problem .expectingComma (rest.length + 1))

/-- An array after its opening bracket. -/
def array (value : List Char → Result Value) (s : List Char) : Result Value :=
  match skipSpace s with
  | ']' :: rest => .ok (.arr [], rest)
  | rest => (listed value ']' (rest.length + 1) rest).map fun (vs, rest) => (.arr vs, rest)

/-- The key of a member, with its colon and the blanks around it. -/
def memberKey (s : List Char) : Result String :=
  match s with
  | '"' :: rest => (string rest).bind fun (key, rest) =>
    match skipSpace rest with
    | ':' :: rest => .ok (key, skipSpace rest)
    | rest => .error (.problem .expectingColon rest.length)
  | _ => .error (.problem .expectingKey s.length)

/-- A member of an object. -/
def member (value : List Char → Result Value) (s : List Char) : Result (String × Value) :=
  (memberKey s).bind fun (key, rest) => (value rest).map fun (v, rest) => ((key, v), rest)

/-- An object after its opening brace. -/
def object (value : List Char → Result Value) (s : List Char) : Result Value :=
  match skipSpace s with
  | '}' :: rest => .ok (.obj [], rest)
  | rest => (listed (member value) '}' (rest.length + 1) rest).map fun (ms, rest) =>
    (Value.ofMembers (ms.map fun (key, v) => (.text key, v)), rest)

/-- A value of at most the given number of levels. -/
def value (named : Bool) : (levels : Nat) → List Char → Result Value
  | 0, s =>
    match s with
    | '{' :: _ => .error .tooDeep
    | '[' :: _ => .error .tooDeep
    | _ => scalar named s
  | levels + 1, s =>
    match s with
    | '{' :: rest => object (value named levels) rest
    | '[' :: rest => array (value named levels) rest
    | _ => scalar named s

/-- The levels that the reader goes down before it gives up. -/
def maxLevels : Nat := 990

/-- A whole text: one value between blanks. -/
def document (named : Bool) (s : List Char) : Except Failure Value :=
  (value named maxLevels (skipSpace s)).bind fun (v, rest) =>
    match skipSpace rest with
    | [] => .ok v
    | rest => .error (.problem .extraData rest.length)

/-- A failure in a text as an error of decoding. -/
def Failure.toError (text : List Char) : Failure → DecodeError
  | .problem what left =>
    .invalid (.problem what (Text.Position.ofOffset text (text.length - left)))
  | .constant name => .invalid (.constant name)
  | .tooManyDigits count => .invalid (.tooManyDigits count)
  | .tooDeep => .tooDeep

/-- Decodes a strict document. The flag says whether `NaN` and the infinities are values. -/
def decode (named : Bool) (text : List Char) : Except DecodeError Value :=
  (document named text).mapError (Failure.toError text)

end JsonShape.Strict
