import JsonShape.Text.Layout

/-!
# Syntax errors of documents

What can be wrong with the text of a document, as causes, and the one place where each is put into
words. Only what a decoder of JSON5 has to say comes in words already.
-/

namespace JsonShape

/-- What is wrong at a place of a strict document. -/
inductive Problem
  | expectingValue
  | expectingKey
  | expectingColon
  | expectingComma
  | extraData
  | controlCharacter
  | unterminatedString
  | invalidEscape
  | invalidUnicodeEscape
  deriving DecidableEq, Repr

/-- A problem in words. -/
def Problem.describe : Problem → String
  | .expectingValue => "Expecting value"
  | .expectingKey => "Expecting property name enclosed in double quotes"
  | .expectingColon => "Expecting ':' delimiter"
  | .expectingComma => "Expecting ',' delimiter"
  | .extraData => "Extra data"
  | .controlCharacter => "Invalid control character at"
  | .unterminatedString => "Unterminated string starting at"
  | .invalidEscape => "Invalid \\escape"
  | .invalidUnicodeEscape => "Invalid \\uXXXX escape"

/-- Why a text is no document. -/
inductive SyntaxError
  | problem (what : Problem) (position : Text.Position)
  | constant (name : String)
  | tooManyDigits (count : Nat)
  | byteOrderMark
  | json5 (message : String)
  deriving DecidableEq, Repr

/-- The most digits that an integer may have. -/
def maxIntegerDigits : Nat := 4300

/-- A syntax error in words. -/
def SyntaxError.message : SyntaxError → String
  | .problem what position => s!"{what.describe}: {position.describe}"
  | .constant name => s!"{name} is not a valid JSON value"
  | .tooManyDigits count =>
    s!"Exceeds the limit ({maxIntegerDigits} digits) for integer string conversion: " ++
      s!"value has {count} digits; use sys.set_int_max_str_digits() to increase the limit"
  | .byteOrderMark =>
    "Unexpected UTF-8 BOM (decode using utf-8-sig): line 1 column 1 (char 0)"
  | .json5 message => message

/-- Why a text cannot be decoded: it is no document, or it nests deeper than a decoder goes. -/
inductive DecodeError
  | invalid (error : SyntaxError)
  | tooDeep
  deriving DecidableEq, Repr

end JsonShape
