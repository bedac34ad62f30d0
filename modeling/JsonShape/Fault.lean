import JsonShape.Document.Problem
import JsonShape.Value

/-!
# Faults

The causes for which a pass ends without a tree, and the one place where each is put into words. A fault of
the document and a cancellation are outcomes of the pass; the other faults are the caller's.
-/

namespace JsonShape

/-- What is wrong with a document: its syntax, the kind of its root, or its depth. -/
inductive DocumentFault
  | invalid (error : SyntaxError)
  | notAnObject (kind : Kind)
  | tooDeep (limit : Int)
  deriving DecidableEq, Repr

namespace DocumentFault

/-- The type that a fault of a document is reported as. -/
def errorType : DocumentFault → String
  | .invalid _ | .notAnObject _ => "ParseError"
  | .tooDeep _ => "DepthExceededError"

/-- A fault of a document in words. -/
def message : DocumentFault → String
  | .invalid error => s!"Invalid JSON: {error.message}"
  | .notAnObject kind => s!"The JSON document must be an object, got {kind.name}"
  | .tooDeep limit => s!"JSON nesting exceeds the maximum depth of {limit}"

end DocumentFault

/-- Why a pass has no tree. -/
inductive Fault
  | document (fault : DocumentFault)
  | cancelled (reason : String)
  | unsupportedValue (kind : Kind)
  | unsupportedKey (kind : Kind)
  | unsupportedShape (kind : Kind)
  | emptyRootName
  | noObjects
  | noShapes
  deriving DecidableEq, Repr

namespace Fault

/-- Whether a fault is a wrong argument of the caller. -/
def isArgument : Fault → Bool
  | .emptyRootName | .noObjects | .noShapes => true
  | .document _ | .cancelled _ | .unsupportedValue _ | .unsupportedKey _ | .unsupportedShape _ =>
    false

/-- A fault in words. -/
def message : Fault → String
  | .document fault => fault.message
  | .cancelled reason => reason
  | .unsupportedValue kind => s!"Unsupported JSON value type: <class '{kind.name}'>"
  | .unsupportedKey kind => s!"JSON object keys must be strings, got <class '{kind.name}'>"
  | .unsupportedShape kind => s!"Unsupported structural type: <class '{kind.name}'>"
  | .emptyRootName => "root_name must not be empty"
  | .noObjects => "unify_objects() requires at least one object"
  | .noShapes => "scalar_minimum() requires at least one type"

end Fault
end JsonShape
