import JsonShape.Text.Character
import JsonShape.Value

/-!
# JSON text

A value as indented JSON text in ASCII: two blanks for each level, a line for each item and member, and
escapes for everything but the printable characters of ASCII. A character beyond the first plane is written
as its surrogate pair. Settings and models are printed, which hold no floats, so floats have no text here,
and neither has what is no JSON.
-/

namespace JsonShape.Printer

/-- The escape of a code unit. -/
def unitEscape (u : Nat) : List Char := '\\' :: 'u' :: Text.hexDigits 4 u

/-- The characters of a string's content that stand for one character. -/
def stringChar (c : Char) : List Char :=
  match c with
  | '"' => ['\\', '"']
  | '\\' => ['\\', '\\']
  | '\n' => ['\\', 'n']
  | '\r' => ['\\', 'r']
  | '\t' => ['\\', 't']
  | '\x08' => ['\\', 'b']
  | '\x0c' => ['\\', 'f']
  | c =>
    let n := c.toNat
    if 0x20 ≤ n && n < 0x7F then [c]
    else if n < 0x10000 then unitEscape n
    else
      unitEscape (0xD800 + (n - 0x10000) / 0x400) ++ unitEscape (0xDC00 + (n - 0x10000) % 0x400)

/-- A string as JSON writes it. -/
def string (s : String) : List Char := '"' :: s.toList.flatMap stringChar ++ ['"']

/-- A line end and the blanks of a level. -/
def newline (level : Nat) : List Char := '\n' :: List.replicate (2 * level) ' '

/-- A key as JSON writes it. -/
def key : Key → List Char
  | .text s => string s
  | .other _ => []

mutual
/-- A value whose lines are indented from a level on. -/
def value (level : Nat) : Value → List Char
  | .null => "null".toList
  | .bool b => (if b then "true" else "false").toList
  | .int n => (toString n).toList
  | .str s => string s
  | .arr [] => ['[', ']']
  | .arr (v :: rest) =>
    '[' :: newline (level + 1) ++ value (level + 1) v ++ moreItems (level + 1) rest ++
      newline level ++ [']']
  | .obj [] => ['{', '}']
  | .obj ((k, v) :: rest) =>
    '{' :: newline (level + 1) ++ key k ++ [':', ' '] ++ value (level + 1) v ++
      moreMembers (level + 1) rest ++ newline level ++ ['}']
  | .float _ | .foreign _ => []
/-- The items of an array after its first. -/
def moreItems (level : Nat) : List Value → List Char
  | [] => []
  | v :: rest => ',' :: newline level ++ value level v ++ moreItems level rest
/-- The members of an object after its first. -/
def moreMembers (level : Nat) : List (Key × Value) → List Char
  | [] => []
  | (k, v) :: rest =>
    ',' :: newline level ++ key k ++ [':', ' '] ++ value level v ++ moreMembers level rest
end

/-- The text of a value. -/
def print (v : Value) : String := String.ofList (value 0 v)

end JsonShape.Printer
