import JsonShape.Document
import JsonShape.Shape.Builder
import JsonShape.Shape.Tree

/-!
# Inference passes

One document in, one outcome out: a tree, a fault of the document, or a cancellation. Any other fault is
no outcome but the caller's. A pass tells what happens to it by events.
-/

namespace JsonShape

/-- What a pass infers from: the text of a document, or a value that is decoded already. -/
inductive Source
  | text (s : String)
  | value (v : Value)

/-- The source that a value handed in is: a string is the text of a document. -/
def Source.ofValue : Value → Source
  | .str s => .text s
  | v => .value v

/-- The levels of nesting down to which shapes are built. -/
def maxBuildDepth : Nat := 450

/-- The members of a source's object, if shapes can be built from it. -/
def Source.members [Json5Decoder] (options : ParserOptions) (source : Source) :
    Except DocumentFault (List (Key × Value)) := do
  let limit := options.maxNestingDepth
  let members ←
    match source with
    | .text s => Document.parse options s
    | .value (.obj ms) => Document.members limit (.obj ms)
    | .value v => .error (.notAnObject v.kind)
  if maxBuildDepth < (Value.obj members).depth then .error (.tooDeep limit)
  else .ok members

/-- What a pass is asked to do. -/
structure Request where
  source : Source
  rootName : String
  scope : String := ""
  options : ParserOptions := {}

/-- Infers the tree of a request. There is a checkpoint at the start and one at the end. -/
def inferTree [Json5Decoder] (r : Request) : Pass Tree := do
  if r.rootName.isEmpty then Pass.fail .emptyRootName
  Pass.check
  let members ← Pass.ofExcept ((r.source.members r.options).mapError .document)
  let root ← buildObject members r.rootName 0
  Pass.check
  return { root, scope := r.scope }

/-! ### Outcomes -/

/-- How a pass ends. -/
inductive Outcome
  | succeeded (tree : Tree)
  | failed (fault : DocumentFault)
  | cancelled (reason : String)

namespace Outcome

/-- The status of an outcome. -/
def status : Outcome → String
  | .succeeded _ => "succeeded"
  | .failed _ => "failed"
  | .cancelled _ => "cancelled"

/-- The type that an outcome without a tree is reported as, and its message. -/
def error? : Outcome → Option (String × String)
  | .succeeded _ => none
  | .failed e => some (e.errorType, e.message)
  | .cancelled reason => some ("InferenceCancelledError", reason)

/-- The tree, if the pass has one. -/
def tree? : Outcome → Option Tree
  | .succeeded t => some t
  | .failed _ | .cancelled _ => none

/-- The outcome of a result; a fault of the caller is none. -/
def ofResult : Except Fault Tree → Except Fault Outcome
  | .ok t => .ok (.succeeded t)
  | .error (.cancelled reason) => .ok (.cancelled reason)
  | .error (.document e) => .ok (.failed e)
  | .error e => .error e

end Outcome

/-- Runs a request under a signal: its outcome, or a fault that is none, and the progress made. -/
def Request.run [Json5Decoder] (r : Request) (signal : Signal) : Except Fault Outcome × Progress :=
  let (result, progress) := (inferTree r).run signal {}
  (Outcome.ofResult result, progress)

/-! ### Events -/

/-- What a pass tells about itself. -/
inductive Event
  | started (rootName : String)
  | completed (rootName : String) (objects : Nat)
  | failed (rootName : String) (fault : DocumentFault)
  | cancelled (rootName : String) (reason : String)

/-- The events of a pass with an outcome. -/
def Request.events (r : Request) (outcome : Outcome) : List Event :=
  [.started r.rootName,
   match outcome with
   | .succeeded t => .completed r.rootName t.objectCount
   | .failed e => .failed r.rootName e
   | .cancelled reason => .cancelled r.rootName reason]

end JsonShape
