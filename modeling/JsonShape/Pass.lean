import JsonShape.Cancellation
import JsonShape.Fault

/-!
# Passes

A pass is a computation that looks at its cancellation signal at every checkpoint, counts its checks and
the objects it has built, and may end in a fault. The counts outlive a fault.
-/

namespace JsonShape

/-- What a pass has done so far. -/
structure Progress where
  checks : Nat := 0
  objectsBuilt : Nat := 0
  deriving DecidableEq, Repr

/-- A computation under a signal, from a progress to a result and the progress made. -/
def Pass (α : Type) : Type := Signal → Progress → Except Fault α × Progress

namespace Pass

variable {α β : Type}

/-- Runs a pass. -/
def run (x : Pass α) (signal : Signal) (p : Progress) : Except Fault α × Progress := x signal p

/-- The pass that has a result at once. -/
protected def pure (a : α) : Pass α := fun _ p => (.ok a, p)

/-- One pass after another. -/
protected def bind (x : Pass α) (f : α → Pass β) : Pass β := fun signal p =>
  match x signal p with
  | (.ok a, p) => f a signal p
  | (.error e, p) => (.error e, p)

instance : Monad Pass where
  pure := Pass.pure
  bind := Pass.bind

/-- The pass that ends in a fault. -/
def fail (e : Fault) : Pass α := fun _ p => (.error e, p)

/-- A checkpoint: counts a check, and ends the pass if the signal is set for it. -/
def check : Pass Unit := fun signal p =>
  let made : Progress := { p with checks := p.checks + 1 }
  match signal.reasonAt? p.checks with
  | some reason => (.error (.cancelled reason), made)
  | none => (.ok (), made)

/-- Counts an object that has been built. -/
def countObject : Pass Unit := fun _ p => (.ok (), { p with objectsBuilt := p.objectsBuilt + 1 })

/-- The pass with a given result. -/
def ofExcept : Except Fault α → Pass α
  | .ok a => Pass.pure a
  | .error e => fail e

@[simp] theorem run_pure (a : α) (signal : Signal) (p : Progress) :
    (pure a : Pass α).run signal p = (.ok a, p) := rfl

@[simp] theorem run_fail (e : Fault) (signal : Signal) (p : Progress) :
    (fail e : Pass α).run signal p = (.error e, p) := rfl

theorem run_bind (x : Pass α) (f : α → Pass β) (signal : Signal) (p : Progress) :
    (x >>= f).run signal p =
      match x.run signal p with
      | (.ok a, p) => (f a).run signal p
      | (.error e, p) => (.error e, p) := rfl

instance : LawfulMonad Pass := LawfulMonad.mk' Pass
  (fun x => by
    funext signal p
    simp only [Functor.map, Pass.bind, Pass.pure, Function.comp_def, id]
    rcases x signal p with ⟨_ | _, _⟩ <;> rfl)
  (fun _ _ => rfl)
  (fun x _ _ => by
    funext signal p
    simp only [bind, Pass.bind]
    rcases x signal p with ⟨_ | _, _⟩ <;> rfl)

end Pass
end JsonShape
