import JsonShape.Document
import JsonShape.Document.Scan
import JsonShape.Text.Character

/-!
# Lenient documents

A decoder of JSON5, with which the program is run: comments, trailing commas, names as keys, single quotes
and more forms of numbers. It is one of the decoders that there may be, and stands in for the library's,
which is not described here; it has the structure of the strict reader, but a text that it refuses gives no
reason.
-/

namespace JsonShape.Lenient

open Scan (after? sign signed)

/-- Why a text is refused. -/
inductive Failure
  | noMatch
  | tooDeep
  deriving DecidableEq, Repr

/-- The result of reading a part: it and what is left of the text. -/
abbrev Result (α : Type) := Except Failure (α × List Char)

/-! ### Blanks and comments -/

/-- The characters that end a line. -/
def isLineEnd (c : Char) : Bool :=
  c == '\n' || c == '\r' || c.toNat == 0x2028 || c.toNat == 0x2029

/-- The blank characters, line ends included. -/
def isSpace (c : Char) : Bool :=
  isLineEnd c || c == '\t' || c == '\x0b' || c == '\x0c' || c.toNat == 0xFEFF ||
    Text.isSpaceSeparator c

/-- What is left after the end of a block comment, if it ends. -/
def afterBlock? : List Char → Option (List Char)
  | [] => none
  | '*' :: '/' :: rest => some rest
  | _ :: rest => afterBlock? rest

/-- What is left after one blank or comment, if the text starts with one. -/
def afterBlank? (s : List Char) : Option (List Char) :=
  match s with
  | '/' :: '/' :: rest => some (rest.dropWhile (!isLineEnd ·))
  | '/' :: '*' :: rest => afterBlock? rest
  | c :: rest => if isSpace c then some rest else none
  | [] => none

/-- What is left after up to `turns` blanks and comments. -/
def skipBlanks : (turns : Nat) → List Char → List Char
  | 0, s => s
  | turns + 1, s =>
    match afterBlank? s with
    | some rest => skipBlanks turns rest
    | none => s

/-- What is left after blanks and comments. -/
def skipSpace (s : List Char) : List Char := skipBlanks s.length s

/-! ### Strings and names -/

/-- The character that a one-letter escape stands for, where it is not the letter. -/
def escaped? (c : Char) : Option Char :=
  match c with
  | 'b' => some '\x08'
  | 'f' => some '\x0c'
  | 'n' => some '\n'
  | 'r' => some '\r'
  | 't' => some '\t'
  | 'v' => some '\x0b'
  | _ => none

/-- A result with a character in front. -/
def prepend (c : Char) (r : Result (List Char)) : Result (List Char) :=
  r.map fun (cs, rest) => (c :: cs, rest)

/-- Whether a text starts with a digit. -/
def startsWithDigit : List Char → Bool
  | [] => false
  | c :: _ => c.isDigit

/-- The characters of a string up to the closing quote `quote`. -/
def readChars (quote : Char) : List Char → Result (List Char)
  | [] => .error .noMatch
  | c :: rest =>
    if c = quote then .ok ([], rest)
    else if c = '\n' || c = '\r' then .error .noMatch
    else if c = '\\' then
      match rest with
      | [] => .error .noMatch
      | e :: rest =>
        if e = 'x' then
          match rest with
          | h₁ :: h₂ :: rest =>
            match Text.hexNumber? [h₁, h₂] with
            | some u => prepend (Text.unitChar u) (readChars quote rest)
            | none => .error .noMatch
          | _ => .error .noMatch
        else if e = 'u' then
          match rest with
          | h₁ :: h₂ :: h₃ :: h₄ :: rest =>
            match Text.hexNumber? [h₁, h₂, h₃, h₄] with
            | some u => prepend (Text.unitChar u) (readChars quote rest)
            | none => .error .noMatch
          | _ => .error .noMatch
        else if e = '0' then
          if startsWithDigit rest then .error .noMatch else prepend '\x00' (readChars quote rest)
        else if e.isDigit then .error .noMatch
        else if e = '\r' then
          match rest with
          | [] => .error .noMatch
          | d :: rest =>
            if d = '\n' then readChars quote rest else readChars quote (d :: rest)
        else if isLineEnd e then readChars quote rest
        else prepend ((escaped? e).getD e) (readChars quote rest)
    else prepend c (readChars quote rest)

/-- A string after its opening quote. -/
def string (quote : Char) (s : List Char) : Result String :=
  (readChars quote s).map fun (cs, rest) => (String.ofList cs, rest)

/-- A character of a name that passes a test, written as itself or as a four-digit escape. -/
def nameChar? (test : Char → Bool) (s : List Char) : Option (Char × List Char) :=
  match s with
  | '\\' :: 'u' :: h₁ :: h₂ :: h₃ :: h₄ :: rest =>
    (Text.hexNumber? [h₁, h₂, h₃, h₄]).map fun u => (Text.unitChar u, rest)
  | c :: rest => if test c then some (c, rest) else none
  | [] => none

/-- Up to `turns` further characters of a name. -/
def nameTail : (turns : Nat) → List Char → List Char × List Char
  | 0, s => ([], s)
  | turns + 1, s =>
    match nameChar? Text.continuesName s with
    | some (c, rest) =>
      let (cs, rest) := nameTail turns rest
      (c :: cs, rest)
    | none => ([], s)

/-- A name. -/
def name (s : List Char) : Result String :=
  match nameChar? Text.startsName s with
  | some (c, rest) =>
    let (cs, rest) := nameTail rest.length rest
    .ok (String.ofList (c :: cs), rest)
  | none => .error .noMatch

/-! ### Numbers -/

/-- The digits before a point: a zero with no digit after it, digits of which the first is no zero, or
none before a point. -/
def whole? (s : List Char) : Option (List Char × List Char) :=
  match s with
  | [] => none
  | c :: rest =>
    if c = '0' then if startsWithDigit rest then none else some (['0'], rest)
    else if c.isDigit then some (c :: rest.takeWhile Char.isDigit, rest.dropWhile Char.isDigit)
    else if c = '.' then some ([], s)
    else none

/-- A point and the digits after it, possibly none. -/
def fraction (s : List Char) : Option (List Char) × List Char :=
  match s with
  | '.' :: rest => (some (rest.takeWhile Char.isDigit), rest.dropWhile Char.isDigit)
  | _ => (none, s)

/-- An exponent as its sign and digits, possibly none. -/
def exponent (s : List Char) : Option (Bool × List Char) × List Char :=
  match s with
  | [] => (none, s)
  | c :: rest =>
    if c = 'e' || c = 'E' then
      let (negative, rest) := sign rest
      (some (negative, rest.takeWhile Char.isDigit), rest.dropWhile Char.isDigit)
    else (none, s)

/-- The value of the parts of a decimal number: the mantissa needs a digit, and so does an exponent. -/
def decimalValue? (negative : Bool) (whole : List Char) (fraction : Option (List Char))
    (exponent : Option (Bool × List Char)) : Option Value :=
  match fraction, exponent with
  | none, none =>
    if maxIntegerDigits < whole.length then none else some (.int (signed negative whole))
  | _, _ =>
    let digits := fraction.getD []
    match exponent with
    | none =>
      if whole.isEmpty && digits.isEmpty then none
      else some (.float (.ofParts negative whole digits 0))
    | some (down, power) =>
      if (whole.isEmpty && digits.isEmpty) || power.isEmpty then none
      else some (.float (.ofParts negative whole digits (signed down power)))

/-- A decimal number after its sign. No name may start where it ends. -/
def decimal? (negative : Bool) (s : List Char) : Option (Option Value × List Char) :=
  match whole? s with
  | none => none
  | some (whole, rest) =>
    let (fraction, rest) := fraction rest
    let (exponent, rest) := exponent rest
    match nameChar? Text.startsName rest with
    | some _ => none
    | none => some (decimalValue? negative whole fraction exponent, rest)

/-- A hexadecimal number after its sign. -/
def hexadecimal? (negative : Bool) (s : List Char) : Option (Value × List Char) :=
  match s with
  | '0' :: x :: rest =>
    if x = 'x' || x = 'X' then
      match rest.takeWhile fun c => (Text.hexValue? c).isSome with
      | [] => none
      | digits =>
        (Text.hexNumber? digits).map fun n =>
          (.int (if negative then -(n : Int) else n), rest.drop digits.length)
    else none
  | _ => none

/-- The constants. -/
def constant? (negative : Bool) (s : List Char) : Option (Value × List Char) :=
  match after? "Infinity".toList s with
  | some rest => some (.float (.infinity negative), rest)
  | none => (after? "NaN".toList s).map fun rest => (.float .nan, rest)

/-- A number: a decimal, a hexadecimal or a constant, after an optional sign. -/
def number (s : List Char) : Result Value :=
  let (negative, rest) := sign s
  match decimal? negative rest with
  | some (some v, rest) => .ok (v, rest)
  | some (none, _) => .error .noMatch
  | none =>
    match (hexadecimal? negative rest).or (constant? negative rest) with
    | some r => .ok r
    | none => .error .noMatch

/-! ### Values -/

/-- A literal. -/
def literal? (s : List Char) : Option (Value × List Char) :=
  match after? "null".toList s, after? "true".toList s, after? "false".toList s with
  | some rest, _, _ => some (.null, rest)
  | _, some rest, _ => some (.bool true, rest)
  | _, _, some rest => some (.bool false, rest)
  | none, none, none => none

/-- A literal, string or number. -/
def scalar (s : List Char) : Result Value :=
  match literal? s with
  | some r => .ok r
  | none =>
    match s with
    | '"' :: rest => (string '"' rest).map fun (text, rest) => (.str text, rest)
    | '\'' :: rest => (string '\'' rest).map fun (text, rest) => (.str text, rest)
    | _ => number s

/-- The items of an array after its opening bracket and blanks, up to `turns` of them. -/
def items (value : List Char → Result Value) : (turns : Nat) → List Char → Result (List Value)
  | 0, _ => .error .noMatch
  | turns + 1, s =>
    match s with
    | ']' :: rest => .ok ([], rest)
    | _ => (value s).bind fun (v, rest) =>
      match skipSpace rest with
      | ']' :: rest => .ok ([v], rest)
      | ',' :: rest => (items value turns (skipSpace rest)).map fun (vs, rest) => (v :: vs, rest)
      | _ => .error .noMatch

/-- An array after its opening bracket. -/
def array (value : List Char → Result Value) (s : List Char) : Result Value :=
  let start := skipSpace s
  (items value (start.length + 1) start).map fun (vs, rest) => (.arr vs, rest)

/-- The key of a member, a string or a name, with its colon and the blanks around it. -/
def memberKey (s : List Char) : Result String :=
  let key :=
    match s with
    | '"' :: rest => string '"' rest
    | '\'' :: rest => string '\'' rest
    | _ => name s
  key.bind fun (key, rest) =>
    match skipSpace rest with
    | ':' :: rest => .ok (key, skipSpace rest)
    | _ => .error .noMatch

/-- The members of an object after its opening brace and blanks, up to `turns` of them. -/
def members (value : List Char → Result Value) :
    (turns : Nat) → List Char → Result (List (Key × Value))
  | 0, _ => .error .noMatch
  | turns + 1, s =>
    match s with
    | '}' :: rest => .ok ([], rest)
    | _ => (memberKey s).bind fun (key, rest) => (value rest).bind fun (v, rest) =>
      match skipSpace rest with
      | '}' :: rest => .ok ([(.text key, v)], rest)
      | ',' :: rest =>
        (members value turns (skipSpace rest)).map fun (ms, rest) => ((.text key, v) :: ms, rest)
      | _ => .error .noMatch

/-- An object after its opening brace. -/
def object (value : List Char → Result Value) (s : List Char) : Result Value :=
  let start := skipSpace s
  (members value (start.length + 1) start).map fun (ms, rest) => (Value.ofMembers ms, rest)

/-- A value of at most the given number of levels. -/
def value : (levels : Nat) → List Char → Result Value
  | 0, s =>
    match s with
    | '{' :: _ => .error .tooDeep
    | '[' :: _ => .error .tooDeep
    | _ => scalar s
  | levels + 1, s =>
    match s with
    | '{' :: rest => object (value levels) rest
    | '[' :: rest => array (value levels) rest
    | _ => scalar s

/-- The levels that the reader goes down before it gives up. -/
def maxLevels : Nat := 64

/-- A whole text: one value between blanks. -/
def document (s : List Char) : Except Failure Value :=
  (value maxLevels (skipSpace s)).bind fun (v, rest) =>
    match skipSpace rest with
    | [] => .ok v
    | _ => .error .noMatch

/-- Decodes a lenient document. -/
def decode (text : List Char) : Except DecodeError Value :=
  (document text).mapError fun
    | .noMatch => .invalid (.json5 "<json5>")
    | .tooDeep => .tooDeep

/-- The lenient reader as the decoder of JSON5. -/
@[reducible] def decoder : Json5Decoder := ⟨decode⟩

end JsonShape.Lenient
