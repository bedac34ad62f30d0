import JsonShape.Command.Options
import JsonShape.Settings.Validator

/-!
# Invocations

What a command line asks for: to generate declarations, to show or save the configuration, or to start
the server. Arguments that ask for none of them are a usage error.
-/

namespace JsonShape.Command

/-- What is written for a tree. -/
inductive Format
  | csharp | model
  deriving DecidableEq, Repr

/-- The arguments to generate declarations. -/
structure Generate where
  input : String := "-"
  name : String
  output : Option String := none
  format : Format := .csharp
  allowTrailingCommas : Option Bool := none
  allowComments : Option Bool := none
  maxDepth : Option Int := none
  docs : Option Bool := none
  nullable : Option Bool := none
  endMarkers : Option Bool := none
  fileScoped : Option Bool := none
  readFromString : Option Bool := none
  writeAsString : Option Bool := none
  namedLiterals : Option Bool := none

/-- What a command line asks for. -/
inductive Invocation
  | generate (g : Generate)
  | config (save : Bool)
  | server

/-- A pair of options that turn something on and off. -/
def switch (on off : String) : List OptionSpec := [{ name := on }, { name := off }]

/-- The options of the command that generates declarations. -/
def generateSpecs : List OptionSpec :=
  [{ name := "--name", letter := some 'n', takesValue := true },
   { name := "--output", letter := some 'o', takesValue := true },
   { name := "--format", letter := some 'f', takesValue := true },
   { name := "--max-depth", takesValue := true },
   { name := "--verbose", letter := some 'v' }] ++
  switch "--allow-trailing-commas" "--no-allow-trailing-commas" ++
  switch "--allow-comments" "--no-allow-comments" ++
  switch "--docs" "--no-docs" ++
  switch "--nullable" "--no-nullable" ++
  switch "--end-markers" "--no-end-markers" ++
  switch "--file-scoped" "--block-namespace" ++
  switch "--allow-reading-from-string" "--no-allow-reading-from-string" ++
  switch "--write-as-string" "--no-write-as-string" ++
  switch "--allow-named-floating-point-literals" "--no-allow-named-floating-point-literals"

/-- The format of a word. -/
def format? : String → Option Format
  | "csharp" => some .csharp
  | "model" => some .model
  | _ => none

/-- The limit of nesting that an argument gives: what a setting with the same text would give. -/
def depth? [Validator] (s : String) : Option Int :=
  (Validator.toInt? (.str s)).filter isNestingLimit

/-- The value of an option, read by `read`, if it is given: `none` if it cannot be read. -/
def optional? {α : Type} (given : Option String) (read : String → Option α) : Option (Option α) :=
  match given with
  | none => some none
  | some s => (read s).map some

/-- The only operand, or a default without one. -/
def operand? (default : String) : List String → Option String
  | [] => some default
  | [s] => some s
  | _ => none

/-- The arguments to generate declarations. -/
def generate? [Validator] (args : List String) : Option Generate := do
  let p ← parseArguments? generateSpecs args
  return {
    input := ← operand? "-" p.operands
    name := ← p.value? "--name"
    output := p.value? "--output"
    format := (← optional? (p.value? "--format") format?).getD .csharp
    maxDepth := ← optional? (p.value? "--max-depth") depth?
    allowTrailingCommas := p.toggle? "--allow-trailing-commas" "--no-allow-trailing-commas"
    allowComments := p.toggle? "--allow-comments" "--no-allow-comments"
    docs := p.toggle? "--docs" "--no-docs"
    nullable := p.toggle? "--nullable" "--no-nullable"
    endMarkers := p.toggle? "--end-markers" "--no-end-markers"
    fileScoped := p.toggle? "--file-scoped" "--block-namespace"
    readFromString :=
      p.toggle? "--allow-reading-from-string" "--no-allow-reading-from-string"
    writeAsString := p.toggle? "--write-as-string" "--no-write-as-string"
    namedLiterals :=
      p.toggle? "--allow-named-floating-point-literals"
        "--no-allow-named-floating-point-literals" }

/-- Whether the configuration is to be saved. -/
def config? (args : List String) : Option Bool := do
  let p ← parseArguments? [{ name := "--save" }] args
  if p.operands.isEmpty then some !p.options.isEmpty else none

/-- Whether no arguments are given. -/
def none? (args : List String) : Option Unit := do
  let p ← parseArguments? [] args
  if p.operands.isEmpty then some () else none

/-- What a command and its arguments ask for. -/
def command? [Validator] (name : String) (args : List String) : Option Invocation :=
  match name with
  | "generate" => (generate? args).map .generate
  | "config" => (config? args).map .config
  | "server" => (none? args).map fun _ => .server
  | _ => none

/-- What a command line asks for, unless it is a usage error. The first argument is the command; `--` may
stand before it. -/
def invocation? [Validator] : List String → Option Invocation
  | [] => none
  | "--" :: name :: args => command? name args
  | name :: args => command? name args

/-- The parser's options with those of the arguments. -/
def Generate.parserOptions (g : Generate) (o : ParserOptions) : ParserOptions :=
  { allowTrailingCommas := g.allowTrailingCommas.getD o.allowTrailingCommas
    allowComments := g.allowComments.getD o.allowComments
    maxNestingDepth := g.maxDepth.getD o.maxNestingDepth }

/-- The output's options with those of the arguments. -/
def Generate.outputOptions (g : Generate) (o : OutputOptions) : OutputOptions :=
  { fileScopedNamespaces := g.fileScoped.getD o.fileScopedNamespaces
    emitDocumentation := g.docs.getD o.emitDocumentation
    emitNullable := g.nullable.getD o.emitNullable
    emitEndMarkers := g.endMarkers.getD o.emitEndMarkers
    allowReadingFromString := g.readFromString.getD o.allowReadingFromString
    allowNamedLiterals := g.namedLiterals.getD o.allowNamedLiterals
    writeAsString := g.writeAsString.getD o.writeAsString }

end JsonShape.Command
