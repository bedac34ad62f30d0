/-!
# Identifiers from keys

The name of a class or a member that stands for a JSON key. Runs of characters other than ASCII letters
and digits separate the key's words; the identifier joins the words, each with its first letter in upper
case, and an identifier that would be empty or start with a digit gets an underscore in front.
-/

namespace JsonShape

/-- The characters of which identifiers are made, the underscore apart: ASCII letters and digits. -/
def isWordChar (c : Char) : Bool := c.isAlphanum

/-- A key without its separators; the character after a separator is in upper case. The flag says
whether the character before was a separator. -/
def collapse : Bool → List Char → List Char
  | _, [] => []
  | after, c :: rest =>
    if isWordChar c then (if after then c.toUpper else c) :: collapse false rest
    else collapse true rest

/-- The first character in upper case, with an underscore in front of a digit or of nothing. -/
def capitalize : List Char → List Char
  | [] => ['_']
  | c :: rest => if c.isDigit then '_' :: c :: rest else c.toUpper :: rest

/-- The identifier of a key. -/
def deriveIdentifier (key : String) : String :=
  String.ofList (capitalize (collapse false key.toList))

/-- The base name for the elements of an array that is held under a name. -/
def elementName (base : String) : String := base ++ "Element"

end JsonShape
