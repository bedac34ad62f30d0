import JsonShape.CSharp.ClassDecl
import JsonShape.CSharp.Options

/-!
# C# source text

The text of a tree's classes for `System.Text.Json`, line by line: a notice, the directives, the
namespace, and the classes, each indented by its depth.
-/

namespace JsonShape.CSharp

/-- The name of this generator. -/
def generatorName : String := "json-typegen"

/-- The notice at the top of each text. -/
def notice : List String :=
  ["/*",
   s!" * Generated by {generatorName}",
   " *",
   s!" * The effect of the {generatorName} license does not extend to this code,",
   s!" * which is a deliverable of {generatorName}. Therefore, no {generatorName}",
   " * license is required to use, copy, modify, merge, publish, distribute,",
   " * sublicense, and/or sell this generated code.",
   " */"]

/-! ### Parts of lines -/

/-- A number of tabs. -/
def tabs (n : Nat) : String := String.ofList (List.replicate n '\t')

/-- The characters of a string literal's content that stand for one character. -/
def literalChar (c : Char) : List Char :=
  if c = '\\' || c = '"' then ['\\', c] else [c]

/-- A text as a string literal. -/
def stringLiteral (s : String) : String :=
  String.ofList ('"' :: s.toList.flatMap literalChar ++ ['"'])

/-- The characters of documentation text that stand for one character. -/
def xmlChar (c : Char) : List Char :=
  if c = '&' then "&amp;".toList
  else if c = '<' then "&lt;".toList
  else if c = '>' then "&gt;".toList
  else [c]

/-- A text within documentation. -/
def xmlText (s : String) : String := String.ofList (s.toList.flatMap xmlChar)

/-- The line that ends a block; the label of the block may follow the brace. -/
def closing (options : OutputOptions) (indent label : String) : String :=
  indent ++ "\x7d" ++ if options.emitEndMarkers then " // " ++ label else ""

/-- The lines of a documentation comment, if there is to be one. -/
def docLines (options : OutputOptions) (indent text : String) : List String :=
  if options.emitDocumentation then
    [indent ++ "/// <summary>", indent ++ "/// " ++ text, indent ++ "/// </summary>"]
  else []

/-! ### Classes -/

/-- The lines of a member. -/
def memberLines (options : OutputOptions) (indent : String) (m : Member) : List String :=
  let handling := options.numberHandling
  docLines options indent s!"Gets or sets the {xmlText m.key}." ++
    [s!"{indent}[JsonPropertyName({stringLiteral m.key})]"] ++
    (if !handling.isEmpty && m.type.isNumeric then
      [s!"{indent}[JsonNumberHandling({NumberHandling.expression handling})]"]
    else []) ++
    [s!"{indent}public {m.type.text options.emitNullable} {m.name} \x7b get; set; \x7d", ""]

/-- The lines of the constructor of a class. -/
def constructorLines (options : OutputOptions) (indent name : String) : List String :=
  docLines options indent s!"Initializes a new instance of the <see cref=\"{name}\"/> class." ++
    [s!"{indent}public {name}() \x7b \x7d"]

/-- The line that declares a class. -/
def classHead (name : String) : String := "public sealed class " ++ name

mutual
/-- The lines of a class, indented by its depth and `base` more. -/
def classLines (options : OutputOptions) (base : Nat) : ClassDecl → List String
  | ⟨name, summary, depth, members, nested⟩ =>
    let indent := tabs (base + depth)
    let inner := indent ++ "\t"
    docLines options indent summary ++ [indent ++ classHead name, indent ++ "\x7b"] ++
      members.flatMap (memberLines options inner) ++ constructorLines options inner name ++
      nestedLines options base nested ++ [closing options indent (classHead name)]
/-- The lines of the classes inside a class, each after an empty line. -/
def nestedLines (options : OutputOptions) (base : Nat) : List ClassDecl → List String
  | [] => []
  | d :: rest => "" :: classLines options base d ++ nestedLines options base rest
end

/-! ### Texts -/

/-- The lines before the namespace. -/
def headLines (options : OutputOptions) : List String :=
  [""] ++ notice ++ [""] ++ (if options.emitNullable then ["#nullable enable", ""] else []) ++
    ["using System.Text.Json.Serialization;", ""]

/-- The lines of a tree: in a block of its namespace, after a line for its namespace, or without one. -/
def treeLines (options : OutputOptions) (t : Tree) : List String :=
  let label := "namespace " ++ t.scope
  let lines (base : Nat) := classLines options base (ofTree t)
  headLines options ++
    if t.scope.isEmpty then lines 0
    else if options.fileScopedNamespaces then [label ++ ";", ""] ++ lines 0
    else [label, "\x7b"] ++ lines 1 ++ [closing options "" label]

/-- The C# text of a tree. -/
def render (options : OutputOptions) (t : Tree) : String :=
  "\n".intercalate (treeLines options t) ++ "\n"

end JsonShape.CSharp
