/-!
# Options of the rendering

What the rendering of a tree as C# may vary, and the handling of numbers that three of the options
choose.
-/

namespace JsonShape

/-- How a tree is rendered. -/
structure OutputOptions where
  fileScopedNamespaces : Bool := true
  emitDocumentation : Bool := true
  emitNullable : Bool := true
  emitEndMarkers : Bool := false
  allowReadingFromString : Bool := false
  allowNamedLiterals : Bool := false
  writeAsString : Bool := false
  deriving DecidableEq, Repr

/-- A way to read or write numbers that is not the strict one. -/
inductive NumberHandling
  | readFromString | writeAsString | namedLiterals
  deriving DecidableEq, Repr

namespace NumberHandling

/-- The bit of a way in a sum of ways. -/
def bit : NumberHandling → Nat
  | .readFromString => 1
  | .writeAsString => 2
  | .namedLiterals => 4

/-- The name of a way among the settings. -/
def settingName : NumberHandling → String
  | .readFromString => "ALLOW_READING_FROM_STRING"
  | .writeAsString => "WRITE_AS_STRING"
  | .namedLiterals => "ALLOW_NAMED_FLOATING_POINT_LITERALS"

/-- The name of a way in C#. -/
def memberName : NumberHandling → String
  | .readFromString => "AllowReadingFromString"
  | .writeAsString => "WriteAsString"
  | .namedLiterals => "AllowNamedFloatingPointLiterals"

/-- The ways as settings are shown. -/
def describe (ways : List NumberHandling) : String :=
  "NumberHandling." ++
    if ways.isEmpty then "STRICT" else "|".intercalate (ways.map settingName)

/-- The ways as a C# expression. -/
def expression (ways : List NumberHandling) : String :=
  if ways.isEmpty then "JsonNumberHandling.Strict"
  else " | ".intercalate (ways.map ("JsonNumberHandling." ++ ·.memberName))

/-- The sum of the bits of the ways. -/
def total (ways : List NumberHandling) : Nat := ways.foldl (fun n way => n + way.bit) 0

end NumberHandling

/-- The ways to handle numbers that the options choose, in the order of their bits. -/
def OutputOptions.numberHandling (o : OutputOptions) : List NumberHandling :=
  (if o.allowReadingFromString then [.readFromString] else []) ++
    (if o.writeAsString then [.writeAsString] else []) ++
    (if o.allowNamedLiterals then [.namedLiterals] else [])

end JsonShape
