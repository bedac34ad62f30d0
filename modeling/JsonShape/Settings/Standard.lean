import JsonShape.Settings.Load
import JsonShape.Text.Integer

/-!
# A validator

The validator with which the program is run. It is one of those that there may be, and stands in for the
library's, which is not described here.

A flag takes booleans, zero, one and the usual words; an integer field takes whole numbers, booleans and
decimal text; a text field takes text alone. A field is read from the value given for it, or from its
variable, and has its default without either; a section with a value that its field does not take, or with
a field that it does not know, is invalid.
-/

namespace JsonShape.Standard

/-! ### Coercions -/

/-- The words for a flag that is off. -/
def offWords : List String := ["0", "off", "f", "false", "n", "no"]

/-- The words for a flag that is on. -/
def onWords : List String := ["1", "on", "t", "true", "y", "yes"]

/-- The flag that a word gives; the case of ASCII letters plays no part. -/
def wordFlag? (s : String) : Option Bool :=
  let word := String.ofList (s.toList.map Char.toLower)
  if offWords.contains word then some false
  else if onWords.contains word then some true
  else none

/-- The flag that a number gives. -/
def numberFlag? (n : Int) : Option Bool :=
  if n = 0 then some false else if n = 1 then some true else none

/-- A raw value as a flag. -/
def toBool? : Value → Option Bool
  | .bool b => some b
  | .int n => numberFlag? n
  | .float x => x.toInt?.bind numberFlag?
  | .str s => wordFlag? s
  | .null | .arr _ | .obj _ | .foreign _ => none

/-- A raw value as an integer. A number with a fraction of zero counts if it fits 64 bits. -/
def toInt? : Value → Option Int
  | .bool b => some (if b then 1 else 0)
  | .int n => some n
  | .float x => x.toInt?.filter fun n => -9223372036854775808 < n ∧ n < 9223372036854775808
  | .str s => Text.givenInt? s
  | .null | .arr _ | .obj _ | .foreign _ => none

/-- A raw value as text. -/
def toText? : Value → Option String
  | .str s => some s
  | _ => none

/-- A raw value as one of some texts. -/
def toOneOf? (texts : List String) (v : Value) : Option String :=
  (toText? v).filter texts.contains

/-! ### Variables -/

/-- The value of the last variable whose name is the given one, ignoring case. -/
def find? (env : Environment) (name : String) : Option String :=
  (env.reverse.find? fun (k, _) => Text.lower k = Text.lower name).map (·.2)

/-- The raw values that variables give the fields of a section. -/
def fromVariables (env : Environment) (part : String) : RawFields := fun name =>
  (find? env (variableName part name)).map .str

/-! ### Sections -/

/-- The parser's options. -/
def parserOptions? (raw : RawFields) : Option ParserOptions := do
  let d : ParserOptions := {}
  return {
    allowTrailingCommas := ← raw.read "allow_trailing_commas" toBool? d.allowTrailingCommas
    allowComments := ← raw.read "allow_comments" toBool? d.allowComments
    maxNestingDepth :=
      ← raw.read "max_nesting_depth" (fun v => (toInt? v).filter isNestingLimit) d.maxNestingDepth }

/-- The output's options. -/
def outputOptions? (raw : RawFields) : Option OutputOptions := do
  let d : OutputOptions := {}
  return {
    fileScopedNamespaces := ← raw.read "file_scoped_namespaces" toBool? d.fileScopedNamespaces
    emitDocumentation := ← raw.read "emit_documentation" toBool? d.emitDocumentation
    emitNullable := ← raw.read "emit_nullable_annotations" toBool? d.emitNullable
    emitEndMarkers := ← raw.read "emit_end_of_block_markers" toBool? d.emitEndMarkers
    allowReadingFromString :=
      ← raw.read "allow_reading_from_string" toBool? d.allowReadingFromString
    allowNamedLiterals :=
      ← raw.read "allow_named_floating_point_literals" toBool? d.allowNamedLiterals
    writeAsString := ← raw.read "write_as_string" toBool? d.writeAsString }

/-- The server's options. -/
def serverOptions? (raw : RawFields) : Option ServerOptions := do
  let d : ServerOptions := {}
  return {
    loggingLevel := ← raw.read "logging_level" toText? d.loggingLevel
    transport := ← raw.read "transport" (toOneOf? transports) d.transport
    host := ← raw.read "host" toText? d.host
    port := ← raw.read "port" toInt? d.port }

/-- A section from the values given for its fields, and for the other fields from the variables. All given
fields must be among the section's. -/
def sectionOf? {α : Type} (part : String) (names : List String) (read : RawFields → Option α)
    (given : List (String × Value)) (env : Environment) : Option α :=
  if given.all (names.contains ·.1) then
    read fun name => (given.lookup name).or (fromVariables env part name)
  else none

/-- The parser's section. -/
def parserSection? : List (String × Value) → Environment → Option ParserOptions :=
  sectionOf? "parser" (({} : ParserOptions).fields.map (·.1)) parserOptions?

/-- The output's section. -/
def outputSection? : List (String × Value) → Environment → Option OutputOptions :=
  sectionOf? "output" (({} : OutputOptions).fields.map (·.1)) outputOptions?

/-- The server's section. -/
def serverSection? : List (String × Value) → Environment → Option ServerOptions :=
  sectionOf? "server" (({} : ServerOptions).fields.map (·.1)) serverOptions?

/-! ### Settings -/

/-- Checks the variable of a whole section: it must hold JSON if it is set. -/
def checkSection (env : Environment) (part : String) : Except LoadError Unit :=
  match (find? env ("JSON_TYPEGEN_" ++ part)).map Settings.decodeJson with
  | none | some (.ok _) => .ok ()
  | some (.error .tooDeep) => .error .tooDeep
  | some (.error _) => .error .invalidVariable

/-- Settings of sections. The sections are given, so that their variables are looked at but not used. -/
def settings (s : Settings) (env : Environment) : Except LoadError Settings := do
  ["parser", "output", "server"].forM (checkSection env)
  return s

/-- The functions above as a validator. -/
@[reducible] def validator : Validator :=
  { toBool?, toInt?, toText?, toOneOf?, find?, settings
    parser? := parserSection?, output? := outputSection?, server? := serverSection?
    dump := Settings.toValue }

end JsonShape.Standard
