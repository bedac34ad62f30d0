import JsonShape.Document.Strict
import JsonShape.Settings.Validator
import JsonShape.Text.Case
import JsonShape.Text.Layout

/-!
# Loading settings

Settings come from a file and from environment variables. The variable of a field, written in upper case,
hides the field in the file. What then is left of the file is given to the sections, which read the
variables themselves.
-/

namespace JsonShape

/-- Whether a variable has exactly the given name. -/
def Environment.defines (env : Environment) (name : String) : Bool := env.any (·.1 = name)

namespace Settings

/-- Decodes JSON in which `NaN` and the infinities are values. A byte order mark is an error. -/
def decodeJson (text : String) : Except LoadError Value :=
  if text.toList.head?.any (·.toNat = 0xFEFF) then .error (.invalidFile .byteOrderMark)
  else
    (Strict.decode true text.toList).mapError fun
      | .invalid error => .invalidFile error
      | .tooDeep => .tooDeep

/-- The members of the settings file: none if there is no file or it is blank. -/
def fileMembers (file : String) (text : Option String) :
    Except LoadError (List (Key × Value)) :=
  match text.map fun t => String.ofList (Text.unifyLineEnds t.toList) with
  | none => .ok []
  | some text =>
    if (Text.strip text).isEmpty then .ok []
    else
      (decodeJson text).bind fun
        | .obj members => .ok members
        | _ => .error (.notAnObject file)

/-- Whether a value counts as nothing. -/
def isNothing : Value → Bool
  | .null => true
  | .bool b => !b
  | .int n => n = 0
  | .float x => x.toInt? = some 0
  | .str s => s.isEmpty
  | .arr items => items.isEmpty
  | .obj members => members.isEmpty
  | .foreign _ => false

/-- The fields that a section has in the file, less those that a variable hides. -/
def fileFields (env : Environment) (file : List (Key × Value)) (name : String) :
    Except LoadError (List (String × Value)) :=
  let value := (Value.member? file name).getD .null
  if isNothing value then .ok []
  else
    match value with
    | .obj members => .ok (members.filterMap fun (key, v) =>
        match key with
        | .text key =>
          if env.defines (Text.upper (variableName name key)) then none
          else some (key, v)
        | .other _ => none)
    | _ => .error .notASection

/-- A section from the file and the variables. -/
def loadSection {α : Type} (construct : List (String × Value) → Environment → Option α)
    (env : Environment) (file : List (Key × Value)) (name : String) : Except LoadError α := do
  let given ← fileFields env file name
  match construct given env with
  | some options => .ok options
  | none => .error .invalidSection

/-- The settings from the members of the file and the variables, section by section. -/
def loadSections [Validator] (env : Environment) (file : List (Key × Value)) :
    Except LoadError Settings := do
  let parser ← loadSection Validator.parser? env file "parser"
  let output ← loadSection Validator.output? env file "output"
  let server ← loadSection Validator.server? env file "server"
  Validator.settings { parser, output, server } env

/-- Loads the settings from the text of the file, if there is one, and the variables. -/
def load [Validator] (file : String) (text : Option String) (env : Environment) :
    Except LoadError Settings :=
  (fileMembers file text).bind (loadSections env)

end Settings
end JsonShape
