import JsonShape.Document.Strict
import JsonShape.Fault
import JsonShape.Value.Depth

/-!
# Documents

The text of a document under the options of the parser. Leading byte order marks are dropped; the text
is decoded strictly, or as JSON5 if either lenient option is set; then the nesting of the value is
checked, and last that it is an object. The decoder of JSON5 is a library's, and a parameter here: all that
is proved of lenient documents is proved of every decoder, or of those that keep to a documented fact.
-/

namespace JsonShape

/-- A decoder of JSON5 texts. -/
class Json5Decoder where
  decode : List Char → Except DecodeError Value

/-- What the parser of documents allows. -/
structure ParserOptions where
  allowTrailingCommas : Bool := false
  allowComments : Bool := false
  maxNestingDepth : Int := 64
  deriving DecidableEq, Repr

/-- Whether documents are decoded leniently: either option turns on all of it. -/
def ParserOptions.lenient (o : ParserOptions) : Bool := o.allowTrailingCommas || o.allowComments

namespace Document

/-- A text without the byte order marks at its front. -/
def dropMarks (text : List Char) : List Char := text.dropWhile (·.toNat = 0xFEFF)

/-- The value of a text, decoded strictly or leniently. -/
def decode [Json5Decoder] (options : ParserOptions) (text : List Char) : Except DecodeError Value :=
  if options.lenient then Json5Decoder.decode text else Strict.decode false text

/-- The members of a value within the limit of depth that is an object. -/
def members (limit : Int) (v : Value) : Except DocumentFault (List (Key × Value)) :=
  match v.depthWithin limit with
  | none => .error (.tooDeep limit)
  | some _ =>
    match v with
    | .obj ms => .ok ms
    | v => .error (.notAnObject v.kind)

/-- The members of the object that a text holds. -/
def parse [Json5Decoder] (options : ParserOptions) (text : String) :
    Except DocumentFault (List (Key × Value)) :=
  match decode options (dropMarks text.toList) with
  | .error (.invalid error) => .error (.invalid error)
  | .error .tooDeep => .error (.tooDeep options.maxNestingDepth)
  | .ok v => members options.maxNestingDepth v

end Document
end JsonShape
