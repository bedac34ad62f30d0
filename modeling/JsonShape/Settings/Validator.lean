import JsonShape.Settings

/-!
# Validation of settings

Settings are declared for a library, which coerces raw values, finds environment variables and makes the
sections. The library is a parameter here: `Validator` has what the program calls of it, and of what these
functions do nothing is known. What a proof needs of the library's documentation it says by name.
-/

namespace JsonShape

/-- Environment variables and their values. -/
abbrev Environment := List (String × String)

/-- The name of the variable of a field. -/
def variableName (part name : String) : String := "JSON_TYPEGEN_" ++ part ++ "_" ++ name

/-- The raw values of fields by name. -/
abbrev RawFields := String → Option Value

/-- The value of a field: coerced from its raw value, or the default. -/
def RawFields.read (raw : RawFields) {α : Type} (name : String) (coerce : Value → Option α)
    (default : α) : Option α :=
  match raw name with
  | none => some default
  | some v => coerce v

/-- Why settings cannot be loaded. -/
inductive LoadError
  | invalidFile (error : SyntaxError)
  | tooDeep
  | notAnObject (file : String)
  | notASection
  | invalidSection
  | invalidVariable
  deriving DecidableEq, Repr

/-- An error of the file in words. -/
def LoadError.message? : LoadError → Option String
  | .invalidFile error => some error.message
  | .notAnObject file => some s!"Config file {file} must contain a JSON object"
  | .tooDeep | .notASection | .invalidSection | .invalidVariable => none

/-- A library that validates settings. It coerces a raw value to a flag, an integer, a text or one of some
texts, and finds the value of the variable of a name; it makes a section of values given for its fields and
of the variables, and settings of sections and the variables; and it shows settings as a JSON value. -/
class Validator where
  toBool? : Value → Option Bool
  toInt? : Value → Option Int
  toText? : Value → Option String
  toOneOf? : List String → Value → Option String
  find? : Environment → String → Option String
  parser? : List (String × Value) → Environment → Option ParserOptions
  output? : List (String × Value) → Environment → Option OutputOptions
  server? : List (String × Value) → Environment → Option ServerOptions
  settings : Settings → Environment → Except LoadError Settings
  dump : Settings → Value

/-- The text that settings are saved as. -/
def Settings.save [Validator] (s : Settings) : String := Printer.print (Validator.dump s)

end JsonShape
