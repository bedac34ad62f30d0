import JsonShape.Document.Lenient
import JsonShape.Proofs.Inference.Result
import JsonShape.Proofs.Interruption
import JsonShape.Proofs.Value.Parts
import Mathlib

/-!
# Cancellation

A pass that is cancelled stops at the first check after that, wherever in the document it is, and has no
tree; a pass that is past its last check is not touched any more. This holds because nothing between a
checkpoint and the end of the pass looks at a fault: unification, registration, classification and
inference itself are composed of checkpoints and steps that make none. The number of checks is bounded
from below by what every document makes the pass look at: each array and each object with a member.
-/

namespace JsonShape

/-! ### Every part of a pass is interruptible -/

theorem unifyAround_interruptible (t : Shape) (others : List Shape) {inner : Pass Shape}
    (h : inner.Interruptible) : (unifyAround t others inner).Interruptible := by
  apply Pass.Interruptible.after_check
  split
  · exact h.map (·.wrap t.arrayDepth)
  · exact .pure _

mutual
theorem unifyInner_interruptible : ∀ (t : Shape) (others : List Shape),
    (unifyInner t others).Interruptible
  | .array e, others => unifyInner_interruptible e others
  | .prim p, others => (Pass.Interruptible.ofExcept _).map Shape.prim
  | .object o, others => by
    rw [unifyInner]
    cases allObjects? others with
    | some us => exact (unifyWith_interruptible o us).map ObjectShape.orAnything
    | none => exact (Pass.Interruptible.ofExcept _).map Shape.prim
termination_by structural t => t
theorem unifyWith_interruptible : ∀ (o : ObjectShape) (others : List ObjectShape),
    (unifyWith o others).Interruptible
  | ⟨name, depth, properties⟩, others => by
    rw [unifyWith]
    apply Pass.Interruptible.after_check
    split
    · exact .pure _
    · exact (unifyProperties_interruptible properties others).map (ObjectShape.mk name depth)
termination_by structural o => o
theorem unifyProperties_interruptible : ∀ (properties : List (String × Shape))
    (others : List ObjectShape), (unifyProperties properties others).Interruptible
  | [], _ => .pure []
  | (key, t) :: rest, others => by
    rw [unifyProperties]
    have hrest := unifyProperties_interruptible rest others
    cases others.mapM (·.get? key) with
    | none => exact hrest
    | some us =>
      simp only
      split
      · exact (Pass.Interruptible.pure t).bind fun u => hrest.map ((key, u) :: ·)
      · exact (unifyAround_interruptible t us (unifyInner_interruptible t _)).bind fun u =>
          hrest.map ((key, u) :: ·)
termination_by structural properties => properties
end

theorem unifyObjects_interruptible (os : List ObjectShape) : (unifyObjects os).Interruptible := by
  cases os with
  | nil => exact .fail _
  | cons o others => exact unifyWith_interruptible o others

theorem Registry.register_interruptible (r : Registry) (o : ObjectShape) :
    (r.register o).Interruptible := by
  apply Pass.Interruptible.after_check
  split
  · exact .pure _
  · cases r.get? o.name with
    | none => exact .pure _
    | some existing =>
      simp only
      split
      · exact .pure _
      · refine (unifyObjects_interruptible _).bind fun merged => ?_
        split <;> exact .pure _

theorem Scope.bind_interruptible (s : Scope) (key : String) (t : Shape) :
    (s.bind key t).Interruptible := by
  unfold Scope.bind
  cases t.innerObject? with
  | none => exact .pure _
  | some o => exact (s.registry.register_interruptible o).bind fun _ => .pure _

theorem elementShape_interruptible (ts : List Shape) : (elementShape ts).Interruptible := by
  unfold elementShape
  split
  · exact .pure _
  · exact .pure _
  · cases allObjects? (distinct ts) with
    | some os => exact (unifyObjects_interruptible os).map ObjectShape.orAnything
    | none => exact (Pass.Interruptible.ofExcept _).map Shape.prim

theorem buildScope_interruptible (name : String) (depth : Nat) {members : Scope → Pass Scope}
    (h : ∀ s, (members s).Interruptible) : (buildScope name depth members).Interruptible := by
  refine Pass.Interruptible.after_check ((h _).bind fun s => ?_)
  exact Pass.Interruptible.countObject.bind fun _ => .pure _

/-- A scope costs its own check besides those of its members. -/
theorem buildScope_makes {name : String} {depth n : Nat} {members : Scope → Pass Scope}
    (h : Pass.Makes n (members { name, depth })) :
    Pass.Makes (1 + (n + 0)) (buildScope name depth members) :=
  Pass.makes_check.bind fun _ => h.bind fun _ =>
    (Pass.Interruptible.countObject.bind fun _ => .pure _).makes_zero

mutual
theorem classify_interruptible : ∀ (v : Value) (name : String) (depth : Nat),
    (classify v name depth).Interruptible
  | .null, _, _ => .pure _
  | .bool _, _, _ => .pure _
  | .int _, _, _ => .pure _
  | .float _, _, _ => .pure _
  | .str _, _, _ => .pure _
  | .foreign _, _, _ => .fail _
  | .arr items, name, depth => by
    rw [classify]
    refine Pass.Interruptible.after_check ?_
    exact (classifyItems_interruptible items (elementName name) depth).bind fun ts =>
      (elementShape_interruptible ts).map Shape.array
  | .obj members, name, depth => by
    rw [classify]
    split
    · exact .pure _
    · exact (buildScope_interruptible name (depth + 1) (bindMembers_interruptible members)).map
        Shape.object
termination_by structural v => v
theorem classifyItems_interruptible : ∀ (items : List Value) (name : String) (depth : Nat),
    (classifyItems items name depth).Interruptible
  | [], _, _ => .pure _
  | v :: rest, name, depth =>
    (classify_interruptible v name depth).bind fun t =>
      (classifyItems_interruptible rest name depth).map (t :: ·)
termination_by structural items => items
theorem bindMembers_interruptible : ∀ (members : List (Key × Value)) (s : Scope),
    (bindMembers members s).Interruptible
  | [], _ => .pure _
  | (.other _, _) :: _, _ => .fail _
  | (.text key, v) :: rest, s =>
    (classify_interruptible v (deriveIdentifier key) s.depth).bind fun t =>
      (s.bind_interruptible key t).bind fun s' => bindMembers_interruptible rest s'
termination_by structural members => members
end

theorem buildObject_interruptible (members : List (Key × Value)) (name : String) (depth : Nat) :
    (buildObject members name depth).Interruptible :=
  buildScope_interruptible name depth (bindMembers_interruptible members)

theorem inferTree_interruptible [Json5Decoder] (r : Request) : (inferTree r).Interruptible := by
  rw [inferTree_eq]
  split
  · exact .fail _
  · apply Pass.Interruptible.after_check
    refine (Pass.Interruptible.ofExcept _).bind fun members => ?_
    refine (buildObject_interruptible members r.rootName 0).bind fun root => ?_
    exact .after_check (.pure _)

/-! ### The checks that a document asks for -/

/-- The number of arrays and of objects with a member among some values. -/
def Value.containers (vs : List Value) : Nat := vs.countP isArray + vs.countP isFilledObject

theorem Value.containers_append (vs ws : List Value) :
    containers (vs ++ ws) = containers vs + containers ws := by
  simp only [containers, List.countP_append]
  omega

mutual
theorem classify_makes : ∀ (v : Value) (name : String) (depth : Nat),
    Pass.Makes (Value.containers v.parts) (classify v name depth)
  | .null, _, _ => (classify_interruptible .null _ _).makes_zero
  | .bool b, _, _ => (classify_interruptible (.bool b) _ _).makes_zero
  | .int n, _, _ => (classify_interruptible (.int n) _ _).makes_zero
  | .float x, _, _ => (classify_interruptible (.float x) _ _).makes_zero
  | .str s, _, _ => (classify_interruptible (.str s) _ _).makes_zero
  | .foreign _, _, _ => Pass.makes_fail _ _
  | .arr items, name, depth => by
    have hitems := classifyItems_makes items (elementName name) depth
    have hcount : Value.containers (Value.arr items).parts =
        1 + (Value.containers (Value.partsOfItems items) + 0) := by
      simp [Value.containers, Value.parts, Value.inside, List.countP_cons, Value.isArray,
        Value.isFilledObject]
      omega
    rw [hcount, classify]
    exact Pass.makes_check.bind fun _ => hitems.bind fun ts =>
      ((elementShape_interruptible ts).map Shape.array).makes_zero
  | .obj members, name, depth => by
    rw [classify]
    split
    · next he =>
      rw [List.isEmpty_iff.mp he]
      exact (Pass.Interruptible.pure Shape.anything).makes_zero
    · next hne =>
      have hmembers := bindMembers_makes members { name, depth := depth + 1 }
      have hcount : Value.containers (Value.obj members).parts =
          1 + (Value.containers (Value.partsOfMembers members) + 0) := by
        simp [Value.containers, Value.parts, Value.inside, Value.isArray, Value.isFilledObject, hne]
        omega
      rw [hcount]
      exact (buildScope_makes hmembers).map Shape.object
termination_by structural v => v
theorem classifyItems_makes : ∀ (items : List Value) (name : String) (depth : Nat),
    Pass.Makes (Value.containers (Value.partsOfItems items)) (classifyItems items name depth)
  | [], _, _ => (Pass.Interruptible.pure []).makes_zero
  | v :: rest, name, depth => by
    rw [Value.partsOfItems_cons, Value.containers_append]
    exact (classify_makes v name depth).bind fun t =>
      (classifyItems_makes rest name depth).map (t :: ·)
termination_by structural items => items
theorem bindMembers_makes : ∀ (members : List (Key × Value)) (s : Scope),
    Pass.Makes (Value.containers (Value.partsOfMembers members)) (bindMembers members s)
  | [], s => (Pass.Interruptible.pure s).makes_zero
  | (.other _, _) :: _, _ => Pass.makes_fail _ _
  | (.text key, v) :: rest, s => by
    rw [Value.partsOfMembers_cons, Value.containers_append]
    refine (classify_makes v (deriveIdentifier key) s.depth).bind fun t => ?_
    rw [← Nat.zero_add (Value.containers _)]
    exact (s.bind_interruptible key t).makes_zero.bind fun s' => bindMembers_makes rest s'
termination_by structural members => members
end

theorem buildObject_makes (members : List (Key × Value)) (name : String) (depth : Nat) :
    Pass.Makes (1 + (Value.containers (Value.obj members).inside + 0)) (buildObject members name depth) :=
  buildScope_makes (bindMembers_makes members { name, depth })

/-- Besides those for its parts and its root, a pass makes a check at its start and one at its end. -/
theorem inferTree_makes [Json5Decoder] {r : Request} {members : List (Key × Value)}
    (hm : r.source.members r.options = .ok members) :
    Pass.Makes (2 + Value.containers (Value.obj members).inside + 1) (inferTree r) := by
  rw [inferTree_eq]
  split
  · exact Pass.makes_fail _ _
  · rw [hm]
    have hroot := buildObject_makes members r.rootName 0
    have hend (root : ObjectShape) : Pass.Makes (1 + 0)
        (Pass.check >>= fun _ => pure (⟨root, r.scope⟩ : Tree)) :=
      Pass.makes_check.bind fun _ => (Pass.Interruptible.pure _).makes_zero
    have hall := Pass.makes_check.bind fun _ =>
      ((Pass.Interruptible.pure members).makes_zero).bind fun _ => hroot.bind fun root => hend root
    refine Pass.Makes.mono hall ?_
    omega

/-! ### Cancellation at any check -/

/-- **A pass can be cancelled at every check.** Set before a check that the uncancelled pass makes, the
signal ends the pass at this check, cancelled for the signal's reason, whatever it would have ended in; set
later, it changes nothing. A pass that succeeds makes a check at its start and at its end, for its root and
for every array and every object with a member in its document. -/
theorem Request.run_cancelled [Json5Decoder] (r : Request) (i : Nat) (reason : String) :
    (i < (r.run none).2.checks → (r.run (some (i, reason))).1 = .ok (.cancelled reason) ∧
      (r.run (some (i, reason))).2.checks = i + 1) ∧
    ((r.run none).2.checks ≤ i → r.run (some (i, reason)) = r.run none) ∧
    ∀ tree, (r.run none).1 = .ok (.succeeded tree) → ∃ members,
      r.source.members r.options = .ok members ∧
        2 + (Value.obj members).inside.countP Value.isArray +
          (Value.obj members).inside.countP Value.isFilledObject + 1 ≤ (r.run none).2.checks := by
  have hinterruptible := inferTree_interruptible r
  refine ⟨fun hlt => ?_, fun hle => ?_, fun tree htree => ?_⟩
  · obtain ⟨hresult, hchecks⟩ := hinterruptible.stopped {} i reason (Nat.zero_le i) hlt
    refine ⟨?_, hchecks⟩
    show Outcome.ofResult ((inferTree r).run (some (i, reason)) {}).1 = _
    rw [hresult]
    rfl
  · have hrun := hinterruptible.unchanged {} i reason hle
    unfold Request.run
    rw [hrun]
  · have hok := Outcome.ofResult_eq_succeeded_iff.mp htree
    obtain ⟨-, members, -, hmembers, -⟩ := Request.tree_eq_ok_iff.mp (Request.tree_of_succeeded htree)
    have hmakes : 0 + (2 + Value.containers (Value.obj members).inside + 1) ≤ (r.run none).2.checks :=
      inferTree_makes hmembers {} tree hok
    refine ⟨members, hmembers, ?_⟩
    unfold Value.containers at hmakes
    omega

/-- A pass of eleven checks, the eighth of which comes before its rows are unified: cancelled there it has no
tree, and a signal that is set after the last check comes too late. -/
theorem Request.run_cancelled_rows :
    letI := Lenient.decoder
    let request : Request := {
      source := .text "\x7b\"rows\": [\x7b\"a\": [1]\x7d, \x7b\"a\": [], \"b\": \x7b\x7d\x7d]\x7d"
      rootName := "Root" }
    let row : ObjectShape := ⟨"RowsElement", 1, [("a", .array .anything)]⟩
    let root : ObjectShape := ⟨"Root", 0, [("rows", .array (.object row))]⟩
    request.run none = (.ok (.succeeded { root }), ⟨11, 3⟩) ∧
      ((request.run (some (7, "stop"))).1 = .ok (.cancelled "stop") ∧
        (request.run (some (7, "stop"))).2.checks = 8) ∧
      request.run (some (11, "stop")) = request.run none := by
  generalize Lenient.decoder = json5
  intro request row root
  have hrun : request.run none = (.ok (.succeeded { root }), ⟨11, 3⟩) := by cbv
  refine ⟨hrun, (Request.run_cancelled request 7 "stop").1 ?_, (Request.run_cancelled request 11 "stop").2.1 ?_⟩
  · rw [hrun]
    decide
  · rw [hrun]

end JsonShape
