import JsonShape.CSharp.Options
import JsonShape.Document
import JsonShape.Document.Printer

/-!
# Settings

The options of the parser, the output and the server, and what each field of them is declared as.
-/

namespace JsonShape

/-- How the server is reached. -/
structure ServerOptions where
  loggingLevel : String := "INFO"
  transport : String := "stdio"
  host : String := "127.0.0.1"
  port : Int := 8384
  deriving DecidableEq, Repr

/-- All settings. -/
structure Settings where
  parser : ParserOptions := {}
  output : OutputOptions := {}
  server : ServerOptions := {}
  deriving DecidableEq, Repr

/-- The greatest limit of nesting that may be set. -/
def maxNestingLimit : Int := 256

/-- Whether a limit of nesting may be set. -/
def isNestingLimit (n : Int) : Bool := 1 ≤ n && n ≤ maxNestingLimit

/-- The ways to reach the server. -/
def transports : List String := ["stdio", "streamable-http", "sse"]

/-- The fields of the parser's section. -/
def ParserOptions.fields (o : ParserOptions) : List (String × Value) :=
  [("allow_trailing_commas", .bool o.allowTrailingCommas),
   ("allow_comments", .bool o.allowComments),
   ("max_nesting_depth", .int o.maxNestingDepth)]

/-- The fields of the output's section. -/
def OutputOptions.fields (o : OutputOptions) : List (String × Value) :=
  [("file_scoped_namespaces", .bool o.fileScopedNamespaces),
   ("emit_documentation", .bool o.emitDocumentation),
   ("emit_nullable_annotations", .bool o.emitNullable),
   ("emit_end_of_block_markers", .bool o.emitEndMarkers),
   ("allow_reading_from_string", .bool o.allowReadingFromString),
   ("allow_named_floating_point_literals", .bool o.allowNamedLiterals),
   ("write_as_string", .bool o.writeAsString)]

/-- The fields of the server's section. -/
def ServerOptions.fields (o : ServerOptions) : List (String × Value) :=
  [("logging_level", .str o.loggingLevel), ("transport", .str o.transport),
   ("host", .str o.host), ("port", .int o.port)]

/-- The settings as a JSON value. -/
def Settings.toValue (s : Settings) : Value :=
  .record [("parser", .record s.parser.fields), ("output", .record s.output.fields),
    ("server", .record s.server.fields)]

end JsonShape
