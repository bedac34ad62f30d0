/-!
# Options among arguments

Arguments of a command split into options and operands. Options stand anywhere before `--`: a long one as
`--name value` or `--name=value`, a short one as `-n value` or `-nvalue`, and short ones without a value
may share a dash. An option that takes a value takes whatever argument comes next.
-/

namespace JsonShape.Command

/-- An option: its long name, its one-letter name if it has one, and whether it takes a value. -/
structure OptionSpec where
  name : String
  letter : Option Char := none
  takesValue : Bool := false
  deriving DecidableEq, Repr

/-- The options given, by long name with their values, and the operands. -/
structure Parsed where
  options : List (String × String) := []
  operands : List String := []
  deriving DecidableEq, Repr

namespace Parsed

/-- An option in front of the others. -/
def withOption (name value : String) (p : Parsed) : Parsed :=
  { p with options := (name, value) :: p.options }

/-- An operand in front of the others. -/
def withOperand (operand : String) (p : Parsed) : Parsed :=
  { p with operands := operand :: p.operands }

/-- The last value given to an option. -/
def value? (p : Parsed) (name : String) : Option String := p.options.reverse.lookup name

/-- What the last of two opposite options says. -/
def toggle? (p : Parsed) (on off : String) : Option Bool :=
  (p.options.reverse.find? fun (name, _) => name = on || name = off).map (·.1 = on)

end Parsed

/-- The options of a cluster of letters, and the arguments left after it. A letter whose option takes a
value takes the rest of the cluster, or the next argument. -/
def letters? (specs : List OptionSpec) (args : List String) :
    List Char → Option (List (String × String) × List String)
  | [] => some ([], args)
  | c :: rest =>
    match specs.find? (·.letter = some c) with
    | none => none
    | some spec =>
      if spec.takesValue then
        if rest.isEmpty then
          match args with
          | [] => none
          | value :: args => some ([(spec.name, value)], args)
        else some ([(spec.name, String.ofList rest)], args)
      else (letters? specs args rest).map fun (options, args) => ((spec.name, "") :: options, args)

/-- The option that a long argument gives, and the arguments left after it; `none` if no option has its
name, `some none` if its value is missing or not allowed. -/
def long? (specs : List OptionSpec) (arg : String) (args : List String) :
    Option (Option ((String × String) × List String)) :=
  let name := String.ofList (arg.toList.takeWhile (· ≠ '='))
  let given := arg.toList.dropWhile (· ≠ '=')
  (specs.find? (·.name = name)).map fun spec =>
    match spec.takesValue, given, args with
    | true, _ :: value, args => some ((spec.name, String.ofList value), args)
    | true, [], value :: args => some ((spec.name, value), args)
    | true, [], [] => none
    | false, [], args => some ((spec.name, ""), args)
    | false, _ :: _, _ => none

/-- Splits up to `turns` arguments. -/
def splitArguments (specs : List OptionSpec) : (turns : Nat) → List String → Option Parsed
  | _, [] => some {}
  | 0, _ :: _ => none
  | turns + 1, arg :: args =>
    if arg = "--" then some { operands := args }
    else
      match arg.toList with
      | '-' :: second :: letters =>
        match long? specs arg args with
        | some (some ((name, value), args)) =>
          (splitArguments specs turns args).map (·.withOption name value)
        | some none => none
        | none =>
          if second = '-' then none
          else do
            let (options, args) ← letters? specs args (second :: letters)
            let parsed ← splitArguments specs turns args
            return { parsed with options := options ++ parsed.options }
      | _ => (splitArguments specs turns args).map (·.withOperand arg)

/-- Splits the arguments of a command. -/
def parseArguments? (specs : List OptionSpec) (args : List String) : Option Parsed :=
  splitArguments specs args.length args

end JsonShape.Command
