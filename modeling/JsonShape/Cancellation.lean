/-!
# Cancellation

A pass looks at its signal at every checkpoint. The signal is unset, or set from some checkpoint on, with
a reason: `some (n, reason)` stops the pass at its check number `n`, counting from zero, unless it has
ended before. A signal is set through its token; the token that passes share when nobody is to cancel
them cannot be used for that.
-/

namespace JsonShape

/-- The signal of a pass: unset, or set before a numbered check, with a reason. -/
abbrev Signal := Option (Nat × String)

namespace Signal

/-- The reason of a cancellation that gives none. -/
def defaultReason : String := "Inference cancelled"

/-- A signal set after `made` checks. A signal that is set already stays set from where it was; a
reason that is not empty replaces the one before. -/
def cancel (s : Signal) (made : Nat) (reason : Option String) : Signal :=
  let given := reason.filter (!·.isEmpty)
  match s with
  | none => some (made, given.getD defaultReason)
  | some (n, old) => some (n, given.getD old)

/-- The reason for which a pass stops at its check number `made`. -/
def reasonAt? (s : Signal) (made : Nat) : Option String :=
  match s with
  | some (n, reason) => if n ≤ made then some reason else none
  | none => none

end Signal

/-- The right to set a signal: one's own signal, or the shared one that is never set. -/
inductive Token
  | own (signal : Signal)
  | shared
  deriving DecidableEq, Repr

namespace Token

/-- The signal of a token. -/
def signal : Token → Signal
  | .own s => s
  | .shared => none

/-- A token after its signal is set, unless it is the shared one. -/
def cancel? (t : Token) (reason : Option String) : Option Token :=
  match t with
  | .own s => some (.own (s.cancel 0 reason))
  | .shared => none

/-- Why the shared token refuses. -/
def refusal : String := "The shared never-cancelled token cannot be cancelled"

end Token
end JsonShape
