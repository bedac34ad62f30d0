import JsonShape.Value

/-!
# Nesting depth

`Value.depth` is the nesting depth of a value, by recursion on it. `Value.depthWithin` finds the same
number with an explicit stack, one container at a time, and gives up at the first container that lies
deeper than a limit.
-/

namespace JsonShape.Value

mutual
/-- The nesting depth of a value: none for a scalar, one more than its deepest child for a container. -/
def depth : Value → Nat
  | .arr items => depthOfItems items + 1
  | .obj members => depthOfMembers members + 1
  | .null | .bool _ | .int _ | .float _ | .str _ | .foreign _ => 0
/-- The greatest depth of the items of an array. -/
def depthOfItems : List Value → Nat
  | [] => 0
  | v :: rest => max v.depth (depthOfItems rest)
/-- The greatest depth of the values of an object. -/
def depthOfMembers : List (Key × Value) → Nat
  | [] => 0
  | (_, v) :: rest => max v.depth (depthOfMembers rest)
end

mutual
/-- The number of values in a value, itself included. -/
def nodes : Value → Nat
  | .arr items => nodesOfItems items + 1
  | .obj members => nodesOfMembers members + 1
  | .null | .bool _ | .int _ | .float _ | .str _ | .foreign _ => 1
/-- The number of values in the items of an array. -/
def nodesOfItems : List Value → Nat
  | [] => 0
  | v :: rest => v.nodes + nodesOfItems rest
/-- The number of values in the values of an object. -/
def nodesOfMembers : List (Key × Value) → Nat
  | [] => 0
  | (_, v) :: rest => v.nodes + nodesOfMembers rest
end

/-- The values directly inside a container; a scalar is none. -/
def children? : Value → Option (List Value)
  | .arr items => some items
  | .obj members => some (members.map (·.2))
  | .null | .bool _ | .int _ | .float _ | .str _ | .foreign _ => none

/-- The number of values in all entries of a stack. -/
def stackNodes (stack : List (Value × Nat)) : Nat := nodesOfItems (stack.map (·.1))

theorem nodesOfItems_append (items items' : List Value) :
    nodesOfItems (items ++ items') = nodesOfItems items + nodesOfItems items' := by
  induction items with
  | nil => simp [nodesOfItems]
  | cons v rest ih => simp [nodesOfItems, ih]; omega

theorem nodesOfItems_reverse (items : List Value) : nodesOfItems items.reverse = nodesOfItems items := by
  induction items with
  | nil => rfl
  | cons v rest ih => simp [nodesOfItems_append, nodesOfItems, ih]; omega

theorem nodesOfMembers_eq (members : List (Key × Value)) :
    nodesOfMembers members = nodesOfItems (members.map (·.2)) := by
  induction members with
  | nil => rfl
  | cons m rest ih => simp [nodesOfMembers, nodesOfItems, ih]

/-- The children of a container have one value less than the container. -/
theorem nodes_eq_of_children? {v : Value} {cs : List Value} (h : v.children? = some cs) :
    v.nodes = nodesOfItems cs + 1 := by
  cases v <;> simp only [children?, Option.some.injEq, reduceCtorEq] at h
  · subst h; rfl
  · subst h; simp only [nodes, nodesOfMembers_eq]

theorem one_le_nodes (v : Value) : 1 ≤ v.nodes := by
  cases v <;> simp [nodes]

theorem stackNodes_push (cs : List Value) (level : Nat) (rest : List (Value × Nat)) :
    stackNodes (cs.reverse.map (·, level) ++ rest) = nodesOfItems cs + stackNodes rest := by
  simp [stackNodes, Function.comp_def, nodesOfItems_append, nodesOfItems_reverse]

/-- Works through a stack of values, each with its level. A container deeper than the limit ends the
walk; otherwise its children go onto the stack, the last on top. -/
def depthLoop (limit : Int) (deepest : Nat) : List (Value × Nat) → Option Nat
  | [] => some deepest
  | (v, level) :: rest =>
    match _h : v.children? with
    | none => depthLoop limit deepest rest
    | some cs =>
      if limit < level then none
      else depthLoop limit (max deepest level) (cs.reverse.map (·, level + 1) ++ rest)
  termination_by stack => stackNodes stack
  decreasing_by
    · have := one_le_nodes v
      simp [stackNodes, nodesOfItems]; omega
    · rw [stackNodes_push]
      have := nodes_eq_of_children? ‹v.children? = some cs›
      simp [stackNodes, nodesOfItems]; omega

/-- The nesting depth of a value, unless it is greater than the limit. A container at the top has level
one. -/
def depthWithin (limit : Int) (v : Value) : Option Nat :=
  depthLoop limit 0 [(v, 1)]

end JsonShape.Value
