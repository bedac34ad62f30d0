import JsonShape.CSharp.Source
import JsonShape.Document.Lenient
import JsonShape.Model
import JsonShape.Proofs.Inference.Result
import JsonShape.Proofs.Value.Depth
import Mathlib

/-!
# Inference sees outlines

What of a document plays a part in inference. `v.SameOutline w` says that two values differ in their scalars
only, and in each place by scalars of one class: texts, numbers of one width, or null and the booleans. Then
the passes that infer from them are one and the same pass. They make the same checks, take every branch alike
and end in the same tree or the same fault, under whatever signal.
-/

namespace JsonShape

/-! ### Outlines -/

/-- The classes of scalars. A number is short if it is an integer of 32 bits, long if it is one of 64 bits that
is not short, and wide if it is any other integer or no integer at all. -/
inductive ScalarClass
  | blank | text | short | long | wide
  deriving DecidableEq, Repr

/-- The class of a scalar; arrays, objects and foreign values are none. -/
def Value.scalarClass? : Value → Option ScalarClass
  | .null | .bool _ => some .blank
  | .str _ => some .text
  | .int n =>
    if -(2 ^ 31) ≤ n ∧ n < 2 ^ 31 then some .short
    else if -(2 ^ 63) ≤ n ∧ n < 2 ^ 63 then some .long
    else some .wide
  | .float _ => some .wide
  | .arr _ | .obj _ | .foreign _ => none

mutual
/-- The values have the same keys in the same order, arrays of the same lengths, and in each place scalars of one
class. -/
inductive Value.SameOutline : Value → Value → Prop
  | scalar {v w : Value} {c : ScalarClass} (hv : v.scalarClass? = some c) (hw : w.scalarClass? = some c) :
      Value.SameOutline v w
  | foreign (kind : Foreign) : Value.SameOutline (.foreign kind) (.foreign kind)
  | arr {items items' : List Value} (h : SameItems items items') : Value.SameOutline (.arr items) (.arr items')
  | obj {members members' : List (Key × Value)} (h : SameMembers members members') :
      Value.SameOutline (.obj members) (.obj members')
/-- Items that have the same outlines, one by one. -/
inductive SameItems : List Value → List Value → Prop
  | nil : SameItems [] []
  | cons {v w : Value} {rest rest' : List Value} (hv : Value.SameOutline v w) (hrest : SameItems rest rest') :
      SameItems (v :: rest) (w :: rest')
/-- Members that have the same keys, and values of the same outlines, one by one. -/
inductive SameMembers : List (Key × Value) → List (Key × Value) → Prop
  | nil : SameMembers [] []
  | cons {v w : Value} {rest rest' : List (Key × Value)} (key : Key) (hv : Value.SameOutline v w)
      (hrest : SameMembers rest rest') : SameMembers ((key, v) :: rest) ((key, w) :: rest')
end

/-! ### Depth -/

theorem Value.depth_eq_zero_of_scalarClass? {v : Value} {c : ScalarClass} (h : v.scalarClass? = some c) :
    v.depth = 0 := by
  cases v with
  | null | bool | int | float | str => rfl
  | arr | obj | foreign => cases h

mutual
/-- Values of one outline nest equally deep. -/
theorem Value.SameOutline.depth_eq {v w : Value} : v.SameOutline w → v.depth = w.depth
  | .scalar hv hw => by rw [Value.depth_eq_zero_of_scalarClass? hv, Value.depth_eq_zero_of_scalarClass? hw]
  | .foreign _ => rfl
  | .arr h => congrArg (· + 1) h.depth_eq
  | .obj h => congrArg (· + 1) h.depth_eq
theorem SameItems.depth_eq {items items' : List Value} :
    SameItems items items' → Value.depthOfItems items = Value.depthOfItems items'
  | .nil => rfl
  | .cons hv hrest => congrArg₂ max hv.depth_eq hrest.depth_eq
theorem SameMembers.depth_eq {members members' : List (Key × Value)} :
    SameMembers members members' → Value.depthOfMembers members = Value.depthOfMembers members'
  | .nil => rfl
  | .cons _ hv hrest => congrArg₂ max hv.depth_eq hrest.depth_eq
end

/-- The walk ends alike for values of one outline, whatever the limit. -/
theorem Value.SameOutline.depthWithin_eq {v w : Value} (h : v.SameOutline w) (limit : Int) :
    v.depthWithin limit = w.depthWithin limit := by
  by_cases hlimit : 0 ≤ limit
  · rw [Value.depthWithin_eq hlimit, Value.depthWithin_eq hlimit, h.depth_eq]
  · -- below zero every container is too deep
    have hlevel : limit < (1 : Nat) := by omega
    cases h with
    | scalar hv hw =>
      have hscalar {u : Value} {c : ScalarClass} (hu : u.scalarClass? = some c) : u.depthWithin limit = some 0 := by
        cases u with
        | null | bool | int | float | str => simp [depthWithin, depthLoop, children?]
        | arr | obj | foreign => cases hu
      rw [hscalar hv, hscalar hw]
    | foreign => rfl
    | arr | obj => simp only [depthWithin, depthLoop, children?, if_pos hlevel]

/-! ### Classification -/

/-- The shape of the scalars of a class. -/
def ScalarClass.primitive : ScalarClass → Primitive
  | .blank => .anything
  | .text => .string
  | .short => .integer
  | .long => .longInteger
  | .wide => .float

/-- The class of a scalar decides on its shape. -/
theorem classify_of_scalarClass? {v : Value} {c : ScalarClass} (h : v.scalarClass? = some c) (name : String)
    (depth : Nat) : classify v name depth = pure (.prim c.primitive) := by
  cases v with
  | null | bool | float | str =>
    cases h
    rfl
  | int n =>
    have hshort : (-2147483648 ≤ n ∧ n ≤ 2147483647) ↔ -(2 ^ 31) ≤ n ∧ n < 2 ^ 31 := by omega
    have hlong : (-9223372036854775808 ≤ n ∧ n ≤ 9223372036854775807) ↔ -(2 ^ 63) ≤ n ∧ n < 2 ^ 63 := by omega
    simp only [classify, classifyInt, hshort, hlong]
    rw [Value.scalarClass?] at h
    split at h
    · next hn =>
      cases h
      rw [if_pos hn, ScalarClass.primitive]
    · next hn =>
      rw [if_neg hn]
      split at h
      · next hn =>
        cases h
        rw [if_pos hn, ScalarClass.primitive]
      · next hn =>
        cases h
        rw [if_neg hn, ScalarClass.primitive]
  | arr | obj | foreign => cases h

theorem SameMembers.isEmpty_eq {members members' : List (Key × Value)} (h : SameMembers members members') :
    members.isEmpty = members'.isEmpty := by
  cases h <;> rfl

mutual
/-- Values of one outline are classified by one and the same pass. -/
theorem Value.SameOutline.classify_eq {v w : Value} (name : String) (depth : Nat) :
    v.SameOutline w → classify v name depth = classify w name depth
  | .scalar hv hw => by rw [classify_of_scalarClass? hv, classify_of_scalarClass? hw]
  | .foreign _ => rfl
  | .arr h => by simp only [classify, h.classify_eq (elementName name) depth]
  | .obj h => by
    have hbind := funext h.bind_eq
    have hempty := h.isEmpty_eq
    simp only [classify, hbind, hempty]
theorem SameItems.classify_eq {items items' : List Value} (name : String) (depth : Nat) :
    SameItems items items' → classifyItems items name depth = classifyItems items' name depth
  | .nil => rfl
  | .cons hv hrest => by simp only [classifyItems, hv.classify_eq name depth, hrest.classify_eq name depth]
theorem SameMembers.bind_eq {members members' : List (Key × Value)} :
    SameMembers members members' → ∀ scope, bindMembers members scope = bindMembers members' scope
  | .nil, _ => rfl
  | .cons (.other _) _ _, _ => rfl
  | .cons (.text key) hv hrest, scope => by
    have hrest := funext hrest.bind_eq
    simp only [bindMembers, hv.classify_eq (deriveIdentifier key) scope.depth, hrest]
end

/-! ### Documents -/

/-- Two documents hold values of one outline, both decoded or both as texts. A document that holds no object is
refused with its kind, so the two are of one kind; objects always are. -/
inductive Source.SameOutline [Json5Decoder] (options : ParserOptions) : Source → Source → Prop
  | value {v w : Value} (h : v.SameOutline w) (hkind : v.kind = w.kind) :
      Source.SameOutline options (.value v) (.value w)
  | text {s t : String} {v w : Value} (hs : Document.decode options (Document.dropMarks s.toList) = .ok v)
      (ht : Document.decode options (Document.dropMarks t.toList) = .ok w) (h : v.SameOutline w)
      (hkind : v.kind = w.kind) : Source.SameOutline options (.text s) (.text t)

/-- Members of one outline, or one fault. -/
inductive SameResult :
    Except DocumentFault (List (Key × Value)) → Except DocumentFault (List (Key × Value)) → Prop
  | ok {ms ms' : List (Key × Value)} (h : SameMembers ms ms') : SameResult (.ok ms) (.ok ms')
  | error (e : DocumentFault) : SameResult (.error e) (.error e)

/-- Values of one outline are both objects, or neither is. -/
theorem Value.SameOutline.obj_or {v w : Value} (h : v.SameOutline w) :
    (∃ ms ms', v = .obj ms ∧ w = .obj ms' ∧ SameMembers ms ms') ∨
      (∀ ms, v ≠ .obj ms) ∧ ∀ ms, w ≠ .obj ms := by
  cases h with
  | obj h => exact .inl ⟨_, _, rfl, rfl, h⟩
  | foreign | arr => exact .inr ⟨nofun, nofun⟩
  | scalar hv hw =>
    right
    constructor
    · rintro ms rfl
      cases hv
    · rintro ms rfl
      cases hw

theorem Document.members_of_ne_obj {v : Value} (hv : ∀ ms, v ≠ .obj ms) (limit : Int) :
    Document.members limit v =
      .error (if (v.depthWithin limit).isSome then .notAnObject v.kind else .tooDeep limit) := by
  unfold Document.members
  cases v.depthWithin limit with
  | none => rfl
  | some depth =>
    cases v with
    | obj ms => exact absurd rfl (hv ms)
    | null | bool | int | float | str | arr | foreign => rfl

theorem Source.members_of_ne_obj [Json5Decoder] {v : Value} (hv : ∀ ms, v ≠ .obj ms) (options : ParserOptions) :
    (Source.value v).members options = .error (.notAnObject v.kind) := by
  cases v with
  | obj ms => exact absurd rfl (hv ms)
  | null | bool | int | float | str | arr | foreign => rfl

theorem Document.members_sameResult {v w : Value} (h : v.SameOutline w) (hkind : v.kind = w.kind) (limit : Int) :
    SameResult (Document.members limit v) (Document.members limit w) := by
  have hdepth := h.depthWithin_eq limit
  rcases h.obj_or with ⟨ms, ms', rfl, rfl, hms⟩ | ⟨hv, hw⟩
  · unfold Document.members
    rw [hdepth]
    cases (Value.obj ms').depthWithin limit with
    | none => exact .error _
    | some depth => exact .ok hms
  · rw [Document.members_of_ne_obj hv, Document.members_of_ne_obj hw, hdepth, hkind]
    exact .error _

/-- The check on how deep shapes are built looks at the depth alone. -/
theorem SameResult.bind_limit {x x' : Except DocumentFault (List (Key × Value))} (h : SameResult x x')
    (limit : Int) :
    let within (ms : List (Key × Value)) : Except DocumentFault (List (Key × Value)) :=
      if maxBuildDepth < (Value.obj ms).depth then .error (.tooDeep limit) else .ok ms
    SameResult (x >>= within) (x' >>= within) := by
  intro within
  cases h with
  | error e => exact .error e
  | @ok ms ms' hms =>
    have hdepth : (Value.obj ms).depth = (Value.obj ms').depth := (Value.SameOutline.obj hms).depth_eq
    show SameResult (within ms) (within ms')
    simp only [within, hdepth]
    split
    · exact .error _
    · exact .ok hms

theorem Source.SameOutline.members_sameResult [Json5Decoder] {options : ParserOptions} {source source' : Source}
    (h : source.SameOutline options source') :
    SameResult (source.members options) (source'.members options) := by
  cases h with
  | value h hkind =>
    rcases h.obj_or with ⟨ms, ms', rfl, rfl, hms⟩ | ⟨hv, hw⟩
    · exact (Document.members_sameResult h hkind options.maxNestingDepth).bind_limit _
    · rw [Source.members_of_ne_obj hv, Source.members_of_ne_obj hw, hkind]
      exact .error _
  | @text s t v w hs ht h hkind =>
    have hparse : SameResult (Document.parse options s) (Document.parse options t) := by
      simp only [Document.parse, hs, ht]
      exact Document.members_sameResult h hkind options.maxNestingDepth
    exact hparse.bind_limit _

/-! ### Passes -/

/-- **Inference sees shapes, not values.** Two documents of one outline are inferred from alike, under the same
names and options: the passes end in the same tree, down to names, depths and the order of properties, or in
the same fault, and make the same checks, be they cancelled or not. So nothing that is rendered or dumped of
them differs. -/
theorem Request.run_of_sameOutline [Json5Decoder] {source source' : Source} {options : ParserOptions}
    (h : source.SameOutline options source') (rootName scope : String) (signal : Signal) :
    let request : Request := { source, rootName, scope, options }
    let request' : Request := { source := source', rootName, scope, options }
    request.run signal = request'.run signal ∧
      ∀ output tree, (request.run signal).1 = .ok (.succeeded tree) →
        ∃ tree', (request'.run signal).1 = .ok (.succeeded tree') ∧
          CSharp.render output tree = CSharp.render output tree' ∧ Model.ofTree tree = Model.ofTree tree' := by
  intro request request'
  have hinfer : inferTree request = inferTree request' := by
    have hmembers := h.members_sameResult
    rw [inferTree_eq, inferTree_eq]
    simp only [request, request']
    generalize source.members options = x, source'.members options = x' at hmembers ⊢
    cases hmembers with
    | error e => rfl
    | @ok ms ms' hms =>
      have hbuild : buildObject ms rootName 0 = buildObject ms' rootName 0 := by
        rw [buildObject, buildObject, funext hms.bind_eq]
      have hgo (ms : List (Key × Value)) (f : List (Key × Value) → Pass Tree) :
          Pass.ofExcept (.ok ms) >>= f = f ms := rfl
      simp only [Except.mapError, hgo, hbuild]
  have hrun : request.run signal = request'.run signal := by rw [Request.run, Request.run, hinfer]
  refine ⟨hrun, fun output tree htree => ?_⟩
  rw [hrun] at htree
  exact ⟨tree, htree, rfl, rfl⟩

/-- Two documents of one outline, with keys of one identifier whose objects are joined, and rows of which the
last has a key alone. Both have the tree of the first. -/
theorem Request.run_of_sameOutline_joined :
    letI := Lenient.decoder
    let ms : List (Key × Value) := [
      (.text "a b", .obj [(.text "x", .int 1), (.text "y", .bool true)]),
      (.text "a-b", .obj [(.text "x", .int 2147483648)]),
      (.text "rows", .arr [.obj [(.text "id", .str "p"), (.text "size", .float .nan)],
        .obj [(.text "id", .str ""), (.text "size", .int (2 ^ 63)), (.text "note", .null)]])]
    let ms' : List (Key × Value) := [
      (.text "a b", .obj [(.text "x", .int (-2147483648)), (.text "y", .null)]),
      (.text "a-b", .obj [(.text "x", .int (-(2 ^ 63)))]),
      (.text "rows", .arr [.obj [(.text "id", .str "q"), (.text "size", .int (-(2 ^ 64)))],
        .obj [(.text "id", .str "p"), (.text "size", .float (.finite false 15 (-1))), (.text "note", .bool false)]])]
    let inner : ObjectShape := ⟨"AB", 1, [("x", .prim .longInteger)]⟩
    let row : ObjectShape := ⟨"RowsElement", 1, [("id", .prim .string), ("size", .prim .float)]⟩
    let tree : Tree := { root := ⟨"Root", 0, [("a b", .object inner), ("a-b", .object inner),
      ("rows", .array (.object row))]⟩, scope := "Ns" }
    (Value.obj ms).SameOutline (.obj ms') ∧
      (Request.run { source := .value (.obj ms'), rootName := "Root", scope := "Ns" } none).1 =
        .ok (.succeeded tree) := by
  generalize Lenient.decoder = json5
  intro ms ms' inner row tree
  have houtline : (Value.obj ms).SameOutline (.obj ms') :=
    .obj <| .cons _ (.obj <| .cons _ (.scalar (c := .short) rfl rfl) <| .cons _ (.scalar (c := .blank) rfl rfl) .nil) <|
      .cons _ (.obj <| .cons _ (.scalar (c := .long) rfl rfl) .nil) <|
      .cons _ (.arr <| .cons
        (.obj <| .cons _ (.scalar (c := .text) rfl rfl) <| .cons _ (.scalar (c := .wide) rfl rfl) .nil) <|
        .cons (.obj <| .cons _ (.scalar (c := .text) rfl rfl) <| .cons _ (.scalar (c := .wide) rfl rfl) <|
          .cons _ (.scalar (c := .blank) rfl rfl) .nil) .nil) .nil
  have hrun : (Request.run { source := .value (.obj ms), rootName := "Root", scope := "Ns" } none).1 =
      .ok (.succeeded tree) := by cbv
  have hdocuments : (Source.value (.obj ms)).SameOutline {} (.value (.obj ms')) := .value houtline rfl
  obtain ⟨hsame, -⟩ := Request.run_of_sameOutline hdocuments "Root" "Ns" none
  exact ⟨houtline, hsame ▸ hrun⟩

end JsonShape
