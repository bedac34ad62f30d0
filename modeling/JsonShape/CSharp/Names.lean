import JsonShape.Identifier
import JsonShape.Shape

/-!
# Names of classes and members

Each name of a class is its natural name, or the first of the natural name with 2, 3, ... behind it that
is free. The members of a class avoid its own name and one another; the classes inside it avoid these,
one another, and the names of all enclosing classes.
-/

namespace JsonShape.CSharp

/-- The candidates for a name: the name itself, then with the numbers from 2 on behind it. -/
def candidate (base : String) : Nat → String
  | 0 => base
  | k + 1 => base ++ Nat.repr (k + 2)

/-- The first free candidate from number `k` on, of which `turns` are looked at before one is taken
unseen. -/
def freshFrom (base : String) (taken : List String) : (turns k : Nat) → String
  | 0, k => candidate base k
  | turns + 1, k =>
    if taken.contains (candidate base k) then freshFrom base taken turns (k + 1)
    else candidate base k

/-- The first candidate that is not taken. One more candidate than there are taken names is enough. -/
def freshName (base : String) (taken : List String) : String :=
  freshFrom base taken taken.length 0

/-- Gives each of some labelled natural names a name that is not taken, in order. -/
def allocate : (taken : List String) → List (String × String) → List (String × String)
  | _, [] => []
  | taken, (label, base) :: rest =>
    let name := freshName base taken
    (label, name) :: allocate (name :: taken) rest

/-- The natural name of the class of an object below the root. -/
def nestedName (name : String) : String := "Json" ++ name ++ "Type"

/-- The member names of a class by key. -/
def memberNames (o : ObjectShape) (owner : String) : List (String × String) :=
  allocate [owner] (o.keys.map fun key => (key, deriveIdentifier key))

/-- The names of the classes inside a class by the names of their shapes. -/
def nestedNames (o : ObjectShape) (reserved : List String) : List (String × String) :=
  allocate reserved (o.subtypes.map fun u => (u.name, nestedName u.name))

end JsonShape.CSharp
