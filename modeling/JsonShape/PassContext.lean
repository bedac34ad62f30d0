/-!
# The context of a pass

What messages logged during a pass say about it: the pass and the document.
-/

namespace JsonShape

/-- The pass and the document that messages are logged for. -/
structure PassContext where
  passId : Option String := none
  documentId : Option String := none
  deriving DecidableEq, Repr

namespace PassContext

/-- The context of a pass for a document, whatever it was before. -/
def bind (_ : PassContext) (passId documentId : String) : PassContext :=
  { passId := some passId, documentId := some documentId }

/-- No context. -/
def clear (_ : PassContext) : PassContext := {}

/-- The variables that a logged message carries. -/
def fields (c : PassContext) : List (String × String) :=
  (c.passId.map ("pass_id", ·)).toList ++ (c.documentId.map ("document_id", ·)).toList

end PassContext
end JsonShape
