import JsonShape.Inference
import JsonShape.Proofs.Inference.Description

/-!
# The result of a pass

What a pass infers, without its checkpoints: `Request.tree` is the tree of a request, or why there is
none. An uncancelled pass ends in the outcome of this result.
-/

namespace JsonShape

/-- The tree that a request asks for, or why there is none. -/
def Request.tree [Json5Decoder] (r : Request) : Except Fault Tree :=
  if r.rootName.isEmpty then .error .emptyRootName
  else (r.source.members r.options).mapError .document >>= fun members =>
    (memberShapes members 0).map fun bs => ⟨settledObject r.rootName 0 bs, r.scope⟩

/-- What a pass does after its root name has been looked at. -/
theorem inferTree_eq [Json5Decoder] (r : Request) : inferTree r =
    if r.rootName.isEmpty then Pass.fail .emptyRootName
    else Pass.check >>= fun _ =>
      Pass.ofExcept ((r.source.members r.options).mapError .document) >>= fun members =>
        buildObject members r.rootName 0 >>= fun root =>
          Pass.check >>= fun _ => pure ⟨root, r.scope⟩ := by
  unfold inferTree
  split <;> rfl

theorem inferTree_yields [Json5Decoder] (r : Request) : (inferTree r).Yields r.tree := by
  rw [inferTree_eq, Request.tree]
  split
  · exact Pass.yields_fail _
  · apply Pass.Yields.after_check
    refine (Pass.yields_ofExcept _).bind fun members _ => ?_
    have hend (root : ObjectShape) : (Pass.check >>= fun _ => pure (⟨root, r.scope⟩ : Tree)).Yields
        (.ok ⟨root, r.scope⟩) := (Pass.yields_pure _).after_check
    have h := (buildObject_yields members r.rootName 0).bind fun root _ => hend root
    cases hm : memberShapes members 0 <;> rw [hm] at h <;> exact h

/-- A tree is the settled object of the shapes of the document's members. -/
theorem Request.tree_eq_ok_iff [Json5Decoder] {r : Request} {tree : Tree} : r.tree = .ok tree ↔
    r.rootName.isEmpty = false ∧ ∃ members bs, r.source.members r.options = .ok members ∧
      memberShapes members 0 = .ok bs ∧ ⟨settledObject r.rootName 0 bs, r.scope⟩ = tree := by
  unfold Request.tree
  cases r.rootName.isEmpty with
  | true => simp
  | false => cases r.source.members r.options <;> simp [Except.mapError, bind, Except.bind, map_eq_ok_iff]

/-! ### Outcomes -/

theorem Outcome.ofResult_eq_succeeded_iff {result : Except Fault Tree} {tree : Tree} :
    Outcome.ofResult result = .ok (.succeeded tree) ↔ result = .ok tree := by
  unfold ofResult
  split <;> simp

/-- An uncancelled pass ends in the outcome of its result. -/
theorem Request.run_none [Json5Decoder] (r : Request) : (r.run none).1 = Outcome.ofResult r.tree :=
  congrArg Outcome.ofResult ((inferTree_yields r).run_none {})

/-- A pass that succeeds has the tree that its request asks for, whatever its signal. -/
theorem Request.tree_of_succeeded [Json5Decoder] {r : Request} {signal : Signal} {tree : Tree}
    (h : (r.run signal).1 = .ok (.succeeded tree)) : r.tree = .ok tree :=
  (inferTree_yields r).eq_ok (Outcome.ofResult_eq_succeeded_iff.mp h)

end JsonShape
