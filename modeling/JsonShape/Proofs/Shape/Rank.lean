import JsonShape.Proofs.Correspondence
import JsonShape.Proofs.Shape.Widening

/-!
# The scalar minimum by kinds

The narrowest primitive of some shapes, found by looking at the kinds that occur among them. A shape that
accepts anything ends the search; strings go with strings only; what is left are numbers, of which the one of
highest rank is taken. Only numbers have a rank, so that this search could come to a kind whose rank is
missing. It does not, and what it finds is the join of the shapes' primitives.
-/

namespace JsonShape

/-- The place of a primitive in the order of widening, which only numbers have. -/
def Primitive.rank? (p : Primitive) : Option Nat := if p.isNumeric then some p.rank else none

/-- The second of two primitives if it has the higher rank, and otherwise the first. -/
def Primitive.higher? (p q : Primitive) : Option Primitive := do
  let r ← p.rank?
  let s ← q.rank?
  return if r < s then q else p

/-- The first primitive of highest rank, if each of them has a rank. -/
def highest? : List Primitive → Option Primitive
  | [] => none
  | p :: rest => p.rank?.bind fun _ => rest.foldlM Primitive.higher? p

/-- The kind of a shape that does not accept anything. -/
def Shape.kind? : Shape → Option Primitive
  | .prim .anything => none
  | .prim p => some p
  | .array _ | .object _ => none

/-- The narrowest primitive that accepts every one of some shapes, by the kinds that occur among them. -/
def minimumByKinds? (ts : List Shape) : Option Primitive :=
  match ts.mapM Shape.kind? with
  | none => some .anything
  | some kinds =>
    if .string ∈ kinds then if ∀ p ∈ kinds, p = .string then some .string else some .anything
    else highest? kinds

theorem Shape.kind?_eq_some_iff {t : Shape} {p : Primitive} :
    t.kind? = some p ↔ t.toPrimitive = p ∧ p ≠ .anything := by
  cases t with
  | prim q => cases q <;> cases p <;> decide
  | array e => cases p <;> simp [kind?, toPrimitive]
  | object o => cases p <;> simp [kind?, toPrimitive]

/-- The kinds of shapes are their primitives, none of which accepts anything. -/
theorem mapM_kind?_eq_some_iff {ts : List Shape} {kinds : List Primitive} :
    ts.mapM Shape.kind? = some kinds ↔ kinds = ts.map Shape.toPrimitive ∧ ∀ p ∈ kinds, p ≠ .anything := by
  rw [mapM_eq_some_iff]
  induction ts generalizing kinds with
  | nil => cases kinds <;> simp
  | cons t rest ih =>
    cases kinds with
    | nil => simp
    | cons p ps =>
      rw [List.forall₂_cons, Shape.kind?_eq_some_iff, ih, List.map_cons, List.cons.injEq,
        List.forall_mem_cons, eq_comm]
      tauto

/-- The higher of two numbers is their join. -/
theorem Primitive.higher?_eq {p q : Primitive} (hp : p.isNumeric = true) (hq : q.isNumeric = true) :
    p.higher? q = some (p.join q) ∧ (p.join q).isNumeric = true := by
  revert hp hq
  cases p <;> cases q <;> decide

/-- The number of highest rank is the join of all. -/
theorem highest?_cons {p : Primitive} {ps : List Primitive} (hp : p.isNumeric = true)
    (hps : ∀ q ∈ ps, q.isNumeric = true) : highest? (p :: ps) = some (ps.foldl Primitive.join p) := by
  have hfold : ps.foldlM Primitive.higher? p = some (ps.foldl Primitive.join p) := by
    induction ps generalizing p with
    | nil => rfl
    | cons q rest ih =>
      rw [List.forall_mem_cons] at hps
      obtain ⟨hstep, hnumeric⟩ := Primitive.higher?_eq hp hps.1
      rw [List.foldlM_cons, hstep]
      exact ih hnumeric hps.2
  rw [highest?, Primitive.rank?, if_pos hp]
  exact hfold

theorem Primitive.isNumeric_of_ne {p : Primitive} (hs : p ≠ .string) (ha : p ≠ .anything) :
    p.isNumeric = true := by
  revert hs ha
  cases p <;> decide

/-- What is above a string and something else accepts anything. -/
theorem Primitive.eq_anything_of_string_le {p q : Primitive} (hs : .string ≤ q) (hp : p ≤ q)
    (hne : p ≠ .string) : q = .anything := by
  revert hs hp hne
  cases p <;> cases q <;> decide

/-- **No rank is ever missing**: the search by kinds finds the scalar minimum of any shapes, if there are
any. -/
theorem minimumByKinds?_eq {ts : List Shape} {m : Primitive} (h : scalarMinimum ts = .ok m) :
    minimumByKinds? ts = some m := by
  cases ts with
  | nil => cases h
  | cons t rest =>
    have hm : rest.foldl (fun p u => p.join u.toPrimitive) t.toPrimitive = m := Except.ok.inj h
    have hle (q : Primitive) : m ≤ q ↔ ∀ p ∈ (t :: rest).map Shape.toPrimitive, p ≤ q := by
      rw [← hm, Primitive.foldl_join_le_iff]
      simp
    have habove := (hle m).mp le_rfl
    unfold minimumByKinds?
    cases hkinds : (t :: rest).mapM Shape.kind? with
    | none =>
      -- a shape that has no kind accepts anything
      have hany : .anything ∈ (t :: rest).map Shape.toPrimitive := by
        by_contra hnot
        rw [mapM_kind?_eq_some_iff.mpr ⟨rfl, fun p hp h => hnot (h ▸ hp)⟩] at hkinds
        cases hkinds
      rw [Primitive.anything_le_iff.mp (habove _ hany)]
    | some kinds =>
      obtain ⟨rfl, hne⟩ := mapM_kind?_eq_some_iff.mp hkinds
      simp only
      split
      · next hstring =>
        split
        · next hall =>
          have hmle : m ≤ .string := (hle _).mpr fun p hp => le_of_eq (hall p hp)
          rw [le_antisymm hmle (habove _ hstring)]
        · next hnot =>
          push Not at hnot
          obtain ⟨p, hp, hps⟩ := hnot
          rw [Primitive.eq_anything_of_string_le (habove _ hstring) (habove p hp) hps]
      · next hstring =>
        have hnumeric : ∀ p ∈ (t :: rest).map Shape.toPrimitive, p.isNumeric = true := fun p hp =>
          Primitive.isNumeric_of_ne (fun h => hstring (h ▸ hp)) (hne p hp)
        rw [List.map_cons, List.forall_mem_cons] at hnumeric
        rw [List.map_cons, highest?_cons hnumeric.1 hnumeric.2, List.foldl_map, hm]

end JsonShape
