import JsonShape.CSharp.Source
import JsonShape.Model
import JsonShape.Runner
import JsonShape.Settings.Validator
import JsonShape.TypeName

/-!
# The server's tools

Tools that infer from a document on request, cancel a document's pass and report on the passes in flight.
The server keeps one runner for each document with a pass in flight; whoever finishes last gives it up.
A runner that was given up may still have cancelled passes in flight, so runners have numbers and each
pass remembers its own.
-/

namespace JsonShape

/-! ### Requests and answers -/

/-- What a document is inferred for: its C# text or its model. -/
inductive Product
  | source | model
  deriving DecidableEq, Repr

/-- A request to infer from a document. -/
structure Inquiry where
  product : Product
  jsonText : String
  typeName : String
  documentId : String := "default"
  allowTrailingCommas : Option Bool := none
  allowComments : Option Bool := none

/-- A call of a tool. -/
inductive ToolCall
  | infer (inquiry : Inquiry)
  | cancel (documentId : String)
  | health

/-- What a tool answers: JSON, C# text, or nothing because the call is refused. -/
inductive ToolAnswer
  | json (v : Value)
  | text (s : String)
  | refused

namespace ToolCall

/-- The names of the tools in alphabetical order. -/
def toolNames : List String :=
  ["cancel_inference", "generate_types", "health_check", "infer_structure"]

/-- The names of an inquiry's arguments. -/
def inquiryArguments : List String :=
  ["json_text", "type_name", "document_id", "allow_trailing_commas", "allow_comments"]

/-- The flag of an argument that may be null. -/
def optionalFlag? [Validator] : Value → Option (Option Bool)
  | .null => some none
  | v => (Validator.toBool? v).map some

/-- The inquiry of some arguments. -/
def inquiry? [Validator] (product : Product) (arguments : List (String × Value)) : Option Inquiry := do
  guard (arguments.all (inquiryArguments.contains ·.1))
  let raw : RawFields := (arguments.lookup ·)
  let jsonText ← raw "json_text"
  let typeName ← raw "type_name"
  return {
    product
    jsonText := ← Validator.toText? jsonText
    typeName := ← Validator.toText? typeName
    documentId := ← raw.read "document_id" Validator.toText? "default"
    allowTrailingCommas := ← raw.read "allow_trailing_commas" optionalFlag? none
    allowComments := ← raw.read "allow_comments" optionalFlag? none }

/-- The call of a tool with some arguments, unless the tool does not exist or does not take them. -/
def ofArguments? [Validator] (tool : String) (arguments : List (String × Value)) :
    Option ToolCall :=
  match tool with
  | "generate_types" => (inquiry? .source arguments).map .infer
  | "infer_structure" => (inquiry? .model arguments).map .infer
  | "cancel_inference" => do
    guard (arguments.all (·.1 = "document_id"))
    let raw : RawFields := (arguments.lookup ·)
    return .cancel (← raw.read "document_id" Validator.toText? "default")
  | "health_check" => if arguments.isEmpty then some .health else none
  | _ => none

end ToolCall

/-! ### The state -/

/-- A pass in flight for a request: its document, runner, token and product. -/
structure Ticket where
  documentId : String
  runner : Nat
  token : Nat
  product : Product
  deriving DecidableEq, Repr

/-- The server: its settings, all runners there have been, and the number of the runner of each
document that has one. -/
structure Server where
  parser : ParserOptions := {}
  output : OutputOptions := {}
  runners : List Runner := []
  registered : List (String × Nat) := []

namespace Server

/-- The runner of a number. -/
def runner (s : Server) (n : Nat) : Runner := s.runners.getD n {}

/-- The runner that is registered for a document. -/
def runnerFor? (s : Server) (documentId : String) : Option Runner :=
  (s.registered.lookup documentId).map s.runner

/-- The server with a runner changed. -/
def update (s : Server) (n : Nat) (f : Runner → Runner) : Server :=
  { s with runners := s.runners.modify n f }

/-- The number of the runner for a document, which is a new one if the document has none. -/
def claim (s : Server) (documentId : String) : Nat × Server :=
  match s.registered.lookup documentId with
  | some n => (n, s)
  | none =>
    let n := s.runners.length
    (n, { s with
      runners := s.runners ++ [{}], registered := s.registered ++ [(documentId, n)] })

/-- Gives up the runner of a document, if it is this one and does not run. -/
def giveUp (s : Server) (documentId : String) (n : Nat) : Server :=
  if !(s.runner n).running && s.registered.lookup documentId = some n then
    { s with registered := s.registered.filter (·.1 ≠ documentId) }
  else s

/-- The documents whose runner runs, in alphabetical order. -/
def runningDocuments (s : Server) : List String :=
  ((s.registered.filter fun (_, n) => (s.runner n).running).map (·.1)).mergeSort

/-- The documents that have a runner, in alphabetical order. -/
def documents (s : Server) : List String := (s.registered.map (·.1)).mergeSort

/-! ### Steps -/

/-- The parser's options of an inquiry. -/
def inquiryOptions (s : Server) (q : Inquiry) : ParserOptions :=
  { s.parser with
    allowTrailingCommas := q.allowTrailingCommas.getD s.parser.allowTrailingCommas
    allowComments := q.allowComments.getD s.parser.allowComments }

/-- Starts the pass of an inquiry, unless its type name is wrong. -/
def start (s : Server) (q : Inquiry) : Except InvalidTypeName (Ticket × Server) := do
  let (scope, rootName) ← splitQualifiedName q.typeName
  let (n, s) := s.claim q.documentId
  let token := (s.runner n).started
  let request : Request :=
    { source := .text q.jsonText, rootName, scope, options := s.inquiryOptions q }
  .ok (⟨q.documentId, n, token, q.product⟩, s.update n (·.start request))

/-- One check of the worker of a pass. -/
def work [Json5Decoder] (s : Server) (t : Ticket) : Server := s.update t.runner (·.work t.token)

/-- All checks of the worker of a pass. -/
def drain [Json5Decoder] (s : Server) (t : Ticket) : Server := s.update t.runner (·.drain t.token)

/-- Hands over the result of a worker that has ended. -/
def resume [Json5Decoder] (s : Server) (t : Ticket) :
    Option (Except Fault Outcome) × Server :=
  match (s.runner t.runner).resume t.token with
  | (some result, r) =>
    (some result, (s.update t.runner fun _ => r).giveUp t.documentId t.runner)
  | (none, _) => (none, s)

/-- Lets the worker of a pass come to its end and hands over its result. -/
def finish [Json5Decoder] (s : Server) (t : Ticket) :
    Option (Except Fault Outcome) × Server :=
  (s.drain t).resume t

/-- Takes the caller of a pass away. -/
def abort (s : Server) (t : Ticket) : Server :=
  (s.update t.runner (·.abort t.token)).giveUp t.documentId t.runner

/-- Cancels the pass of a document. Says whether there was one. -/
def cancel (s : Server) (documentId : String) : Bool × Server :=
  match s.registered.lookup documentId with
  | none => (false, s)
  | some n =>
    let (done, r) := (s.runner n).cancel Runner.byCaller
    (done, s.update n fun _ => r)

/-! ### Answers -/

/-- The answer to a call with a wrong argument. -/
def argumentAnswer (message : String) : ToolAnswer :=
  .json (.record [("success", .bool false), ("error", .str message)])

/-- The answer for a pass that has no tree. -/
def failureAnswer (status errorType message : String) : ToolAnswer :=
  .json (.record [("success", .bool false), ("status", .str status),
    ("error_type", .str errorType), ("error", .str message)])

/-- The answer for a tree. A model comes with the time that the pass took, too, which is left out. -/
def treeAnswer (s : Server) (product : Product) (t : Tree) : ToolAnswer :=
  match product with
  | .source => .text (CSharp.render s.output t)
  | .model =>
    .json (.record [("success", .bool true), ("object_count", .int t.objectCount),
      ("model", Model.ofTree t)])

/-- The answer for the result of a pass. -/
def resultAnswer (s : Server) (product : Product) : Except Fault Outcome → ToolAnswer
  | .ok outcome =>
    match outcome.tree?, outcome.error? with
    | some t, _ => s.treeAnswer product t
    | none, some (errorType, message) => failureAnswer outcome.status errorType message
    | none, none => .refused
  | .error e => if e.isArgument then argumentAnswer e.message else .refused

/-- The answer to a request to cancel a document's pass. -/
def cancelAnswer (documentId : String) (done : Bool) : ToolAnswer :=
  .json (.record (
    if done then
      [("success", .bool true), ("document_id", .str documentId),
        ("message", .str "Inference cancelled")]
    else
      [("success", .bool false),
        ("error", .str s!"No inference running for '{documentId}'")]))

/-- The answer to a request for the server's health, but for how long the server has been up. -/
def healthAnswer (s : Server) : ToolAnswer :=
  let running := s.runningDocuments
  .json (.record [("status", .str "healthy"), ("running_passes", .int running.length),
    ("documents", .arr (running.map .str))])

/-- Accepts a call: it is answered at once, or a pass is in flight for it. -/
def accept (s : Server) : ToolCall → Except ToolAnswer Ticket × Server
  | .infer q =>
    match s.start q with
    | .ok (t, s) => (.ok t, s)
    | .error e => (.error (argumentAnswer e.message), s)
  | .cancel documentId =>
    let (done, s) := s.cancel documentId
    (.error (cancelAnswer documentId done), s)
  | .health => (.error s.healthAnswer, s)

/-- Settles a call: its pass comes to its end and is answered. -/
def settle [Json5Decoder] (s : Server) (t : Ticket) : ToolAnswer × Server :=
  let (result, s) := s.finish t
  (result.elim .refused (s.resultAnswer t.product), s)

/-- A call from beginning to end. -/
def call [Json5Decoder] (s : Server) (c : ToolCall) : ToolAnswer × Server :=
  match s.accept c with
  | (.ok t, s) => s.settle t
  | (.error answer, s) => (answer, s)

end Server
end JsonShape
