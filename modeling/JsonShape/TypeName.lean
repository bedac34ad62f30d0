import JsonShape.Text.Layout
import JsonShape.Text.Character

/-!
# Qualified type names

A type name as a user gives it: the name after the last point, the namespace before it.
-/

namespace JsonShape

/-- A text that is no type name, as it was given. -/
structure InvalidTypeName where
  given : String
  deriving DecidableEq, Repr

/-- What is wrong with a text that is no type name. -/
def InvalidTypeName.message (e : InvalidTypeName) : String :=
  s!"A type name is required, got {Text.quoted e.given}"

/-- The namespace and the name of a qualified name. Blanks around it are dropped; the name must not be
empty. -/
def splitQualifiedName (given : String) : Except InvalidTypeName (String × String) :=
  let backwards := (Text.trim Text.isBlank given.toList).reverse
  let name := (backwards.takeWhile (· ≠ '.')).reverse
  let scope := ((backwards.dropWhile (· ≠ '.')).drop 1).reverse
  if name.isEmpty then .error ⟨given⟩ else .ok (String.ofList scope, String.ofList name)

end JsonShape
