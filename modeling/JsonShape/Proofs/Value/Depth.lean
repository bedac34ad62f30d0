import JsonShape.Document
import Mathlib

/-!
# The depth that a walk finds

A walk through a value visits the containers in it one by one. In whatever order it takes them, it ends, and it has
found the depth that recursion finds, or has given up just where that depth is greater than the limit. What a turn
keeps is the result that the walk is heading for: this depends on the deepest level seen and on the deepest one that
the pending containers reach. The loop with a stack is one of these walks.
-/

namespace JsonShape.Value

/-! ### Depth by children -/

theorem depthOfMembers_eq (members : List (Key × Value)) :
    depthOfMembers members = depthOfItems (members.map (·.2)) := by
  induction members with
  | nil => rfl
  | cons m rest ih => simp [depthOfMembers, depthOfItems, ih]

/-- A container is one level deeper than its children. -/
theorem depth_eq_of_children? {v : Value} {cs : List Value} (h : v.children? = some cs) :
    v.depth = depthOfItems cs + 1 := by
  cases v <;> simp only [children?, Option.some.injEq, reduceCtorEq] at h
  · subst h
    rfl
  · subst h
    rw [depth, depthOfMembers_eq]

/-- What has no children has no depth. -/
theorem depth_eq_zero_of_children? {v : Value} (h : v.children? = none) : v.depth = 0 := by
  cases v <;> simp_all [children?, depth]

theorem depth_le_depthOfItems {items : List Value} {v : Value} (h : v ∈ items) :
    v.depth ≤ depthOfItems items := by
  induction items with
  | nil => cases h
  | cons w items ih =>
    rw [depthOfItems]
    rcases List.mem_cons.mp h with rfl | h
    · exact Nat.le_max_left ..
    · exact Nat.le_trans (ih h) (Nat.le_max_right ..)

/-- The depth of items is the greatest of theirs. -/
theorem depthOfItems_eq (items : List Value) : depthOfItems items = (items.map depth).foldr max 0 := by
  induction items with
  | nil => rfl
  | cons v rest ih => rw [depthOfItems, ih, List.map_cons, List.foldr_cons]

theorem nodesOfItems_eq (items : List Value) : nodesOfItems items = (items.map nodes).sum := by
  induction items with
  | nil => rfl
  | cons v rest ih => rw [nodesOfItems, ih, List.map_cons, List.sum_cons]

/-! ### What is reached -/

/-- The level of the deepest container that a value at a level holds, itself included; a scalar is none. -/
def reach (v : Value) (level : Nat) : Nat := if v.depth = 0 then 0 else level + v.depth - 1

/-- The level of the deepest container of all entries. -/
def reachOfAll (entries : Multiset (Value × Nat)) : Nat := (entries.map fun e => e.1.reach e.2).sup

@[simp] theorem reachOfAll_zero : reachOfAll 0 = 0 := rfl

@[simp] theorem reachOfAll_cons (v : Value) (level : Nat) (entries : Multiset (Value × Nat)) :
    reachOfAll ((v, level) ::ₘ entries) = max (v.reach level) (reachOfAll entries) := by
  rw [reachOfAll, Multiset.map_cons, Multiset.sup_cons]
  rfl

@[simp] theorem reachOfAll_add (entries entries' : Multiset (Value × Nat)) :
    reachOfAll (entries + entries') = max (reachOfAll entries) (reachOfAll entries') := by
  rw [reachOfAll, Multiset.map_add, Multiset.sup_add]
  rfl

/-- Values at one level reach as far as the deepest of them. -/
theorem reachOfAll_level (cs : List Value) (level : Nat) :
    reachOfAll ↑(cs.map (·, level)) = if depthOfItems cs = 0 then 0 else level + depthOfItems cs - 1 := by
  induction cs with
  | nil => rfl
  | cons v rest ih =>
    rw [List.map_cons, ← Multiset.cons_coe, reachOfAll_cons, ih, reach, depthOfItems]
    have hmax : max v.depth (depthOfItems rest) = 0 ↔ v.depth = 0 ∧ depthOfItems rest = 0 := by omega
    simp only [hmax]
    split <;> split <;> split <;> omega

/-- A container reaches its own level, or as far as its children on the next. -/
theorem reach_eq_of_children? {v : Value} {cs : List Value} (h : v.children? = some cs) (level : Nat) :
    v.reach level = max level (reachOfAll ↑(cs.map (·, level + 1))) := by
  rw [reachOfAll_level, reach, depth_eq_of_children? h]
  split <;> split <;> omega

/-! ### Walks -/

/-- Where a walk is: the deepest level that it has seen and the entries that it has yet to visit, each a value with
its level; or the result that it has ended with, which is none if it has given up. -/
inductive Walk
  | visiting (deepest : Nat) (pending : Multiset (Value × Nat))
  | ended (result : Option Nat)

namespace Walk

variable {limit : Int} {w w' : Walk}

/-- The start of a walk through a value. A container at the top has level one. -/
def start (v : Value) : Walk := .visiting 0 {(v, 1)}

/-- A turn of a walk, which takes any of the pending entries. A scalar is passed over, a container is replaced by its
children; a container below the limit, or no entry at all, ends the walk. -/
inductive Turn (limit : Int) : Walk → Walk → Prop
  | scalar {deepest : Nat} {v : Value} {level : Nat} {rest : Multiset (Value × Nat)} (hv : v.children? = none) :
      Turn limit (.visiting deepest ((v, level) ::ₘ rest)) (.visiting deepest rest)
  | container {deepest : Nat} {v : Value} {level : Nat} {rest : Multiset (Value × Nat)} {cs : List Value}
      (hv : v.children? = some cs) (hlevel : level ≤ limit) :
      Turn limit (.visiting deepest ((v, level) ::ₘ rest))
        (.visiting (max deepest level) (↑(cs.map (·, level + 1)) + rest))
  | tooDeep {deepest : Nat} {v : Value} {level : Nat} {rest : Multiset (Value × Nat)} {cs : List Value}
      (hv : v.children? = some cs) (hlevel : limit < level) :
      Turn limit (.visiting deepest ((v, level) ::ₘ rest)) (.ended none)
  | done {deepest : Nat} : Turn limit (.visiting deepest 0) (.ended (some deepest))

/-- A walk that has not ended goes on. -/
theorem exists_turn (limit : Int) (deepest : Nat) (pending : Multiset (Value × Nat)) :
    ∃ w, Turn limit (.visiting deepest pending) w := by
  cases pending using Multiset.induction_on with
  | empty => exact ⟨_, .done⟩
  | cons e rest =>
    obtain ⟨v, level⟩ := e
    cases hv : v.children? with
    | none => exact ⟨_, .scalar hv⟩
    | some cs =>
      by_cases hlevel : level ≤ limit
      · exact ⟨_, .container hv hlevel⟩
      · exact ⟨_, .tooDeep hv (Int.not_le.mp hlevel)⟩

/-- The number of values that a walk has yet to pass, and one for its end. -/
def size : Walk → Nat
  | .visiting _ pending => (pending.map fun e => e.1.nodes).sum + 1
  | .ended _ => 0

theorem Turn.size_lt (h : Turn limit w w') : w'.size < w.size := by
  cases h with
  | @scalar _ v _ _ hv =>
    have := v.one_le_nodes
    simp only [size, Multiset.map_cons, Multiset.sum_cons]
    omega
  | @container _ _ level _ cs hv _ =>
    have hchildren : ((cs.map (·, level + 1)).map fun e : Value × Nat => e.1.nodes).sum = nodesOfItems cs := by
      rw [List.map_map, nodesOfItems_eq]
      rfl
    simp only [size, Multiset.map_add, Multiset.sum_add, Multiset.map_cons, Multiset.sum_cons, Multiset.map_coe,
      Multiset.sum_coe, hchildren, nodes_eq_of_children? hv]
    omega
  | tooDeep | done => exact Nat.succ_pos _

/-- No walk goes on for ever. -/
theorem wellFounded_turn (limit : Int) : WellFounded fun w' w => Turn limit w w' :=
  Subrelation.wf Turn.size_lt (measure size).wf

/-- The result that a walk is heading for: the deepest level that it has seen or will come to, or none if it will
come too deep. -/
def result (limit : Int) : Walk → Option Nat
  | .visiting deepest pending =>
    if (reachOfAll pending : Int) ≤ limit then some (max deepest (reachOfAll pending)) else none
  | .ended result => result

/-- A turn does not change the result. -/
theorem Turn.result_eq (hlimit : 0 ≤ limit) (h : Turn limit w w') : w'.result limit = w.result limit := by
  cases h with
  | @scalar _ v level _ hv =>
    have hreach : v.reach level = 0 := if_pos (depth_eq_zero_of_children? hv)
    simp only [result, reachOfAll_cons, hreach, Nat.zero_max]
  | @container deepest _ level rest cs hv hlevel =>
    simp only [result, reachOfAll_cons, reachOfAll_add, reach_eq_of_children? hv]
    generalize reachOfAll ↑(cs.map (·, level + 1)) = below
    generalize reachOfAll rest = beside
    -- the level is within the limit, so it matters for the deepest level seen only
    have hwithin : ((max (max level below) beside : Nat) : Int) ≤ limit ↔
        ((max below beside : Nat) : Int) ≤ limit := by omega
    have hdeepest : max (max deepest level) (max below beside) =
        max deepest (max (max level below) beside) := by omega
    simp only [hwithin, hdeepest]
  | @tooDeep _ _ level _ _ hv hlevel =>
    simp only [result, reachOfAll_cons, reach_eq_of_children? hv]
    rw [if_neg]
    omega
  | done => simp [result, hlimit]

/-- Nor does a run of turns, in whatever order the entries are taken. -/
theorem result_eq_of_reaches (hlimit : 0 ≤ limit) (h : Relation.ReflTransGen (Turn limit) w w') :
    w'.result limit = w.result limit := by
  induction h with
  | refl => rfl
  | tail _ hturn ih => rw [hturn.result_eq hlimit, ih]

/-- A walk through a value is heading for its depth. -/
theorem result_start (limit : Int) (v : Value) :
    (start v).result limit = if (v.depth : Int) ≤ limit then some v.depth else none := by
  have hreach : reachOfAll {(v, 1)} = v.depth := by
    rw [← Multiset.cons_zero, reachOfAll_cons, reachOfAll_zero, reach]
    split <;> omega
  rw [start, result, hreach, Nat.zero_max]

end Walk

/-! ### The loop -/

/-- The loop makes the turns that take the top of its stack. -/
theorem reaches_depthLoop (limit : Int) (deepest : Nat) (stack : List (Value × Nat)) :
    Relation.ReflTransGen (Walk.Turn limit) (.visiting deepest ↑stack) (.ended (depthLoop limit deepest stack)) := by
  fun_induction depthLoop limit deepest stack with
  | case1 deepest => exact .single .done
  | case2 deepest v level rest hv ih =>
    rw [← Multiset.cons_coe]
    exact .head (.scalar hv) ih
  | case3 deepest v level rest cs hv hlevel =>
    rw [← Multiset.cons_coe]
    exact .single (.tooDeep hv hlevel)
  | case4 deepest v level rest cs hv hlevel ih =>
    have hpush : (↑(cs.reverse.map (·, level + 1) ++ rest) : Multiset (Value × Nat)) =
        ↑(cs.map (·, level + 1)) + ↑rest := by
      rw [← Multiset.coe_add, List.map_reverse, Multiset.coe_reverse]
    rw [← Multiset.cons_coe]
    rw [hpush] at ih
    exact .head (.container hv (Int.not_lt.mp hlevel)) ih

/-- The walk finds the depth of a value that is no deeper than the limit, and no other depth. -/
theorem depthWithin_eq {limit : Int} (hlimit : 0 ≤ limit) (v : Value) :
    v.depthWithin limit = if (v.depth : Int) ≤ limit then some v.depth else none := by
  have hrun : Relation.ReflTransGen (Walk.Turn limit) (.start v) (.ended (v.depthWithin limit)) :=
    reaches_depthLoop limit 0 [(v, 1)]
  rw [← Walk.result_start, ← Walk.result_eq_of_reaches hlimit hrun, Walk.result]

/-- A value that is too deep is at fault for that, whatever else it is. -/
theorem members_eq_tooDeep_iff {limit : Int} (hlimit : 0 ≤ limit) {v : Value} :
    Document.members limit v = .error (.tooDeep limit) ↔ limit < v.depth := by
  unfold Document.members
  rw [depthWithin_eq hlimit, ← Int.not_le]
  by_cases hdepth : (v.depth : Int) ≤ limit
  · cases v <;> simp [hdepth]
  · simp [hdepth]

/-! ### All walks -/

/-- **Every walk finds the depth.** The depth of a value is one more than the greatest of its children's, and of what
has no children it is zero. The loop finds it for every value and every limit, unless it is greater than the limit,
which is just when the value is refused with this limit. No walk goes on for ever, and in whatever order it takes the
pending entries, a walk through the value that cannot go on has ended with the result of the loop. -/
theorem walks_find_depth (v : Value) (m : Nat) :
    let found := if v.depth ≤ m then some v.depth else none
    (∀ u : Value, u.depth = u.children?.elim 0 fun cs => 1 + (cs.map depth).foldr max 0) ∧
    v.depthWithin m = found ∧
    (Document.members m v = .error (.tooDeep m) ↔ m < v.depth) ∧
    (WellFounded fun w' w => Walk.Turn m w w') ∧
    ∀ w, Relation.ReflTransGen (Walk.Turn m) (.start v) w → (∃ w', Walk.Turn m w w') ∨ w = .ended found := by
  intro found
  have hfound : found = if (v.depth : Int) ≤ m then some v.depth else none := by
    simp only [found, Int.ofNat_le]
  have hlimit : (0 : Int) ≤ m := Int.natCast_nonneg m
  refine ⟨fun u => ?depth, ?loop, ?fault, Walk.wellFounded_turn m, fun w hw => ?walk⟩
  case depth =>
    cases hu : u.children? with
    | none => exact depth_eq_zero_of_children? hu
    | some cs => rw [depth_eq_of_children? hu, depthOfItems_eq, Nat.add_comm, Option.elim_some]
  case loop => rw [hfound, depthWithin_eq hlimit]
  case fault => rw [members_eq_tooDeep_iff hlimit, Int.ofNat_lt]
  case walk =>
    cases w with
    | visiting deepest pending => exact .inl (Walk.exists_turn m deepest pending)
    | ended result =>
      have hresult := Walk.result_eq_of_reaches hlimit hw
      rw [Walk.result_start, ← hfound] at hresult
      exact .inr (congrArg Walk.ended hresult)

/-- Walks that visit the array before the object behind it, which the loop takes first: the one finds the depth, the
other gives up. -/
theorem walks_find_depth_array_first :
    let v : Value := .obj [(.text "a", .arr [.int 1]), (.text "b", .obj [])]
    Relation.ReflTransGen (Walk.Turn 2) (.start v) (.ended (some 2)) ∧ v.depthWithin 2 = some 2 ∧
      Relation.ReflTransGen (Walk.Turn 1) (.start v) (.ended none) ∧ Document.members 1 v = .error (.tooDeep 1) := by
  intro v
  let behind : Multiset (Value × Nat) := {(.obj [], 2)}
  have hroot {limit : Int} (h : 1 ≤ limit) :
      Walk.Turn limit (.start v) (.visiting 1 ((.arr [.int 1], 2) ::ₘ behind)) :=
    .container (v := v) rfl h
  have harray : Walk.Turn 2 (.visiting 1 ((.arr [.int 1], 2) ::ₘ behind)) (.visiting 2 ((.int 1, 3) ::ₘ behind)) :=
    .container (v := .arr [.int 1]) rfl le_rfl
  have hint : Walk.Turn 2 (.visiting 2 ((.int 1, 3) ::ₘ behind)) (.visiting 2 behind) := .scalar rfl
  have hobject : Walk.Turn 2 (.visiting 2 behind) (.visiting 2 0) := .container (v := .obj []) rfl le_rfl
  have htooDeep : Walk.Turn 1 (.visiting 1 ((.arr [.int 1], 2) ::ₘ behind)) (.ended none) := .tooDeep rfl (by decide)
  have hfound : Relation.ReflTransGen (Walk.Turn 2) (.start v) (.ended (some 2)) :=
    .head (hroot (by decide)) (.head harray (.head hint (.head hobject (.single .done))))
  refine ⟨hfound, ?_, .head (hroot (by decide)) (.single htooDeep), ?_⟩
  · obtain ⟨-, hloop, -, -, hend⟩ := walks_find_depth v 2
    obtain ⟨w, hw⟩ | hended := hend _ hfound
    · cases hw
    · exact hloop.trans (Walk.ended.inj hended).symm
  · obtain ⟨-, -, hfault, -, -⟩ := walks_find_depth v 1
    exact hfault.mpr (by decide)

end JsonShape.Value
