import JsonShape.CSharp.Source
import JsonShape.Command.Invocation
import JsonShape.Command.Path
import JsonShape.Document.Printer
import JsonShape.Inference
import JsonShape.Model
import JsonShape.Serve
import JsonShape.Text.Layout
import JsonShape.TypeName

/-!
# Running commands

What a command does, with files and standard input given by the caller, and the report of what it wrote
and how it ended.
-/

namespace JsonShape.Command

/-- An error that a command does not tell about but passes on. -/
inductive Escape
  | file (e : FileError) (path : Path)
  | transport (e : UnknownTransport)
  | fault (e : Fault)
  deriving DecidableEq, Repr

/-- An error that escapes, in words. -/
def Escape.message : Escape → String
  | .file e path => e.message path
  | .transport e => e.message
  | .fault e => e.message

/-- How a command ended: its exit code and output, an error that escaped it, the settings it saved and the
server it started. -/
structure Report where
  exitCode : Nat := 0
  stdout : String := ""
  stderr : String := ""
  escaped : Option Escape := none
  saved : Option String := none
  served : Option ServeCall := none
  deriving DecidableEq, Repr

/-- The report of a usage error. -/
def usageReport : Report := { exitCode := 2, stderr := "<usage>" }

/-- The report of an error that the command tells about. -/
def errorReport (exitCode : Nat) (message : String) : Report :=
  { exitCode, stderr := s!"Error: {message}\n" }

/-- The report of an error that escapes. -/
def escapedReport (e : Escape) : Report := { exitCode := 1, escaped := some e }

/-- The text of a file's bytes. -/
def fileText (content : List UInt8) : Except String String :=
  match Text.Utf8.decode content with
  | .ok chars => .ok (String.ofList (Text.unifyLineEnds chars))
  | .error e => .error e.message

/-- The text of the input: standard input for `-`, else a file. -/
def readInput {m : Type → Type} [Monad m] (files : Files m) (stdin : m String) (input : String) :
    m (Except String String) := do
  if input = "-" then return .ok (← stdin)
  let path := Path.ofString input
  match ← files.read path with
  | .ok content => return fileText content
  | .error e => return .error (e.message path)

/-- The text that is written for a tree. -/
def treeText (format : Format) (options : OutputOptions) (t : Tree) : String :=
  match format with
  | .csharp => CSharp.render options t
  | .model => Printer.print (Model.ofTree t) ++ "\n"

/-- Writes the text for a tree to a file or to standard output. -/
def writeOutput {m : Type → Type} [Monad m] (files : Files m) (g : Generate) (text : String)
    (t : Tree) : m Report := do
  match g.output with
  | none => return { stdout := text }
  | some output =>
    let path := Path.ofString output
    match ← files.write path text with
    | .ok () => return { stderr := s!"Wrote {t.objectCount} types to {path.display}\n" }
    | .error e => return escapedReport (.file e path)

/-- Generates declarations. The type name is looked at before the input is read. -/
def generate [Json5Decoder] {m : Type → Type} [Monad m] (files : Files m) (stdin : m String)
    (s : Settings) (g : Generate) : m Report := do
  match splitQualifiedName g.name with
  | .error e => return errorReport 2 e.message
  | .ok (scope, rootName) =>
    match ← readInput files stdin g.input with
    | .error message => return errorReport 2 message
    | .ok text =>
      let request : Request :=
        { source := .text text, rootName, scope, options := g.parserOptions s.parser }
      match (request.run none).1 with
      | .ok (.succeeded t) =>
        writeOutput files g (treeText g.format (g.outputOptions s.output) t) t
      | .ok (.failed e) => return errorReport 1 e.message
      | .ok (.cancelled reason) => return errorReport 1 reason
      | .error e => return escapedReport (.fault e)

/-- A flag as the configuration shows it. -/
def showFlag (b : Bool) : String := if b then "True" else "False"

/-- The configuration as it is shown. -/
def showSettings (s : Settings) : String :=
  let line (label value : String) := s!"{label}: {value}\n"
  line "Allow trailing commas" (showFlag s.parser.allowTrailingCommas) ++
    line "Allow comments" (showFlag s.parser.allowComments) ++
    line "Max nesting depth" (toString s.parser.maxNestingDepth) ++
    line "File-scoped namespaces" (showFlag s.output.fileScopedNamespaces) ++
    line "Documentation" (showFlag s.output.emitDocumentation) ++
    line "Nullable annotations" (showFlag s.output.emitNullable) ++
    line "End-of-block markers" (showFlag s.output.emitEndMarkers) ++
    line "Number handling" (NumberHandling.describe s.output.numberHandling) ++
    line "Server" s!"{s.server.transport} ({s.server.host}:{s.server.port})"

/-- Shows the configuration and saves it if asked to. -/
def config [Validator] (file : String) (s : Settings) (save : Bool) : Report :=
  if save then { stdout := showSettings s ++ s!"Saved to {file}\n", saved := some s.save }
  else { stdout := showSettings s }

/-- Starts the server. -/
def server (s : Settings) : Report :=
  match s.server.serveCall with
  | .ok c => { served := some c }
  | .error e => escapedReport (.transport e)

/-- Runs a command line. -/
def run [Json5Decoder] [Validator] {m : Type → Type} [Monad m] (files : Files m) (stdin : m String)
    (file : String) (s : Settings) (args : List String) : m Report := do
  match invocation? args with
  | none => return usageReport
  | some (.generate g) => generate files stdin s g
  | some (.config save) => return config file s save
  | some .server => return server s

end JsonShape.Command
