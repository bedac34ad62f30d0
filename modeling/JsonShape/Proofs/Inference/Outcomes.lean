import JsonShape.Proofs.Document.Decoding
import JsonShape.Proofs.Inference.Result
import JsonShape.Proofs.Settings.Validation
import JsonShape.Proofs.Shape.Rank
import JsonShape.Proofs.Value.Faults

/-!
# Outcomes

How passes that nobody cancels end. A text is parsed or not, and what is parsed has a tree; so a text never
makes a pass end in a fault that is no outcome. A value that is handed in may be nested too deep; otherwise
its faults, if it has any, are the caller's, and without them it has a tree. The limit of nesting is assumed
to be one that may be set, which keeps documents out of the reach of the limit that building has of its own, and
of the decoder of JSON5 it is assumed that what it returns is decoded.
-/

namespace JsonShape

variable {options : ParserOptions}

/-! ### The members of a source -/

/-- Building goes down deeper than every limit of nesting that may be set. -/
theorem not_maxBuildDepth_lt (hoptions : options.Validated) {v : Value}
    (h : (v.depth : Int) ≤ options.maxNestingDepth) : ¬maxBuildDepth < v.depth := by
  have hlimit : options.maxNestingDepth ≤ 256 := hoptions.2
  unfold maxBuildDepth
  omega

/-- The members of a text are those that it is parsed as. -/
theorem Source.members_text [Json5Decoder] (hjson5 : Json5Decoder.ReturnsDecoded)
    (hoptions : options.Validated) (text : String) :
    (Source.text text).members options = Document.parse options text := by
  have hlimit := hoptions.nonneg
  simp only [Source.members]
  cases hparse : Document.parse options text with
  | error e => rfl
  | ok ms =>
    have hdepth := (Document.decoded_of_parse hjson5 hlimit hparse).2
    exact if_neg (not_maxBuildDepth_lt hoptions hdepth)

/-- The members of an object are its own, unless it is nested too deep. -/
theorem Source.members_obj [Json5Decoder] (hoptions : options.Validated) (ms : List (Key × Value)) :
    (Source.value (.obj ms)).members options =
      if ((Value.obj ms).depth : Int) ≤ options.maxNestingDepth then .ok ms
      else .error (.tooDeep options.maxNestingDepth) := by
  have hlimit := hoptions.nonneg
  simp only [Source.members, Document.members, Value.depthWithin_eq hlimit]
  by_cases hdepth : ((Value.obj ms).depth : Int) ≤ options.maxNestingDepth
  · rw [if_pos hdepth, if_pos hdepth]
    exact if_neg (not_maxBuildDepth_lt hoptions hdepth)
  · rw [if_neg hdepth, if_neg hdepth]
    rfl

/-! ### The outcome by the members -/

/-- A violation is the caller's fault and no outcome. -/
theorem Outcome.ofResult_of_isViolation {f : Fault} (h : f.isViolation = true) :
    Outcome.ofResult (.error f) = .error f := by
  cases f <;> first | rfl | cases h

section

variable [Json5Decoder] {r : Request} (hname : r.rootName.isEmpty = false)
include hname

/-- Without members, the outcome is the reason why there are none. -/
theorem Request.run_of_members_error {e : DocumentFault} (h : r.source.members r.options = .error e) :
    (r.run none).1 = .ok (.failed e) := by
  rw [Request.run_none, Request.tree, hname, h]
  rfl

/-- With members, the pass has a tree if these have no fault, and otherwise ends in the first one. -/
theorem Request.run_of_members_ok {ms : List (Key × Value)} (h : r.source.members r.options = .ok ms) :
    ((Value.obj ms).faults = [] ∧ ∃ tree, (r.run none).1 = .ok (.succeeded tree)) ∨
      ∃ f rest, (Value.obj ms).faults = f :: rest ∧ (r.run none).1 = .error f := by
  have hreports : Reports (Value.obj ms).faults (memberShapes ms 0) := reports_memberShapes ms 0
  have htree : r.tree = (memberShapes ms 0).map fun bs => ⟨settledObject r.rootName 0 bs, r.scope⟩ := by
    rw [Request.tree, hname, h]
    rfl
  rw [Request.run_none, htree]
  cases hfaults : (Value.obj ms).faults with
  | nil =>
    obtain ⟨bs, hbs⟩ := hreports.eq_nil_iff.mp hfaults
    rw [hbs]
    exact .inl ⟨rfl, _, rfl⟩
  | cons f rest =>
    have hf : memberShapes ms 0 = .error f := (hreports f).mpr (by rw [hfaults]; rfl)
    have hviolation : f.isViolation = true :=
      Value.isViolation_of_mem_faults (v := .obj ms) (hfaults ▸ List.mem_cons_self ..)
    rw [hf]
    exact .inr ⟨f, rest, rfl, Outcome.ofResult_of_isViolation hviolation⟩

variable (hoptions : r.options.Validated)
include hoptions

/-- A text has a tree, or the reason for which it cannot be parsed. -/
theorem Request.run_text (hjson5 : Json5Decoder.ReturnsDecoded) {text : String} (hsource : r.source = .text text) :
    (∃ ms tree, Document.parse r.options text = .ok ms ∧ (r.run none).1 = .ok (.succeeded tree)) ∨
      ∃ e, Document.parse r.options text = .error e ∧ (r.run none).1 = .ok (.failed e) := by
  have hmembers : r.source.members r.options = Document.parse r.options text := by
    rw [hsource, Source.members_text hjson5 hoptions]
  cases hparse : Document.parse r.options text with
  | error e => exact .inr ⟨e, rfl, Request.run_of_members_error hname (hmembers.trans hparse)⟩
  | ok ms =>
    -- what is parsed is decoded, so it has no faults
    have hnil := (Document.decoded_of_parse hjson5 hoptions.nonneg hparse).1.faults_eq_nil
    rcases Request.run_of_members_ok hname (hmembers.trans hparse) with ⟨-, tree, h⟩ | ⟨f, rest, hcons, -⟩
    · exact .inl ⟨ms, tree, rfl, h⟩
    · rw [hnil] at hcons
      cases hcons

/-- An object that is nested too deep fails for this; any other has a tree, or ends in the first of its
faults. -/
theorem Request.run_obj {ms : List (Key × Value)} (hsource : r.source = .value (.obj ms)) :
    (r.options.maxNestingDepth < (Value.obj ms).depth ∧
      (r.run none).1 = .ok (.failed (.tooDeep r.options.maxNestingDepth))) ∨
    ((Value.obj ms).depth ≤ r.options.maxNestingDepth ∧
      (((Value.obj ms).faults = [] ∧ ∃ tree, (r.run none).1 = .ok (.succeeded tree)) ∨
        ∃ f rest, (Value.obj ms).faults = f :: rest ∧ (r.run none).1 = .error f)) := by
  have hmembers := Source.members_obj hoptions ms
  rw [← hsource] at hmembers
  by_cases hdepth : ((Value.obj ms).depth : Int) ≤ r.options.maxNestingDepth
  · rw [if_pos hdepth] at hmembers
    exact .inr ⟨hdepth, Request.run_of_members_ok hname hmembers⟩
  · rw [if_neg hdepth] at hmembers
    exact .inl ⟨Int.not_le.mp hdepth, Request.run_of_members_error hname hmembers⟩

end

/-! ### Classification -/

/-- **How a pass that nobody cancels ends.** A text always has an outcome: a tree if it can be parsed, and
otherwise the reason why it cannot. An object that is handed in and nested too deep has just this for its
outcome. Any other has a tree, or ends in a violation, the first of its faults, which it has just if
somewhere in it is a value or a key that no decoder makes. The search for a scalar minimum never lacks a
rank. Of the decoder of JSON5 it is assumed that it makes decoded values. -/
theorem Request.outcome_of_uncancelled [Json5Decoder] (r : Request) (hname : r.rootName.isEmpty = false)
    (hoptions : r.options.Validated) (hjson5 : Json5Decoder.ReturnsDecoded) :
    (∀ text, r.source = .text text →
      (∃ outcome, (r.run none).1 = .ok outcome) ∧
      ((∃ tree, (r.run none).1 = .ok (.succeeded tree)) ↔
        ∃ ms, Document.parse r.options text = .ok ms) ∧
      ∀ e, (r.run none).1 = .ok (.failed e) ↔ Document.parse r.options text = .error e) ∧
    (∀ ms, r.source = .value (.obj ms) →
      ((r.run none).1 = .ok (.failed (.tooDeep r.options.maxNestingDepth)) ↔
        r.options.maxNestingDepth < (Value.obj ms).depth) ∧
      ((Value.obj ms).depth ≤ r.options.maxNestingDepth →
        ((∃ f, f.isViolation = true ∧ (r.run none).1 = .error f) ↔
          ∃ w ∈ (Value.obj ms).parts, w.isUndecodable = true) ∧
        (∀ f, (r.run none).1 = .error f ↔ (Value.obj ms).faults.head? = some f) ∧
        ((∃ tree, (r.run none).1 = .ok (.succeeded tree)) ↔
          ¬∃ w ∈ (Value.obj ms).parts, w.isUndecodable = true))) ∧
    ∀ ts, ts ≠ [] → ∃ p, scalarMinimum ts = .ok p ∧ minimumByKinds? ts = some p := by
  refine ⟨fun text hsource => ?text, fun ms hsource => ?value, fun ts hts => ?minimum⟩
  case text =>
    rcases Request.run_text hname hoptions hjson5 hsource with ⟨ms, tree, hparse, hrun⟩ | ⟨e, hparse, hrun⟩
    · simp [hparse, hrun]
    · simp [hparse, hrun]
  case value =>
    have hiff : (∃ w ∈ (Value.obj ms).parts, w.isUndecodable = true) ↔ (Value.obj ms).faults ≠ [] := by
      rw [ne_eq, Value.faults_eq_nil_iff]
      simp
    rw [hiff]
    rcases Request.run_obj hname hoptions hsource with ⟨hdepth, hrun⟩ | ⟨hdepth, hnil | hcons⟩
    · exact ⟨iff_of_true hrun hdepth, fun h => absurd h (Int.not_le.mpr hdepth)⟩
    · obtain ⟨hnil, tree, hrun⟩ := hnil
      simp [hnil, hrun, Int.not_lt.mpr hdepth]
    · obtain ⟨f, rest, hcons, hrun⟩ := hcons
      have hviolation : f.isViolation = true :=
        Value.isViolation_of_mem_faults (v := .obj ms) (hcons ▸ List.mem_cons_self ..)
      simp [hcons, hrun, hviolation, Int.not_lt.mpr hdepth]
  case minimum =>
    cases ts with
    | nil => exact absurd rfl hts
    | cons t rest => exact ⟨_, rfl, minimumByKinds?_eq rfl⟩

/-- Two rows that are joined, with a set under a key that the join drops and after it a key that is no text:
the pass ends in the first of the two. A text that lacks its last brace fails for what is expected there. -/
theorem Request.outcome_of_uncancelled_rows :
    letI := Lenient.decoder
    let value : Value := .obj [(.text "rows", .arr [
      .obj [(.text "a", .int 1)],
      .obj [(.text "a", .null), (.text "b", .arr [.foreign .set]), (.other .tuple, .null)]])]
    let request : Request := { source := .value value, rootName := "Root" }
    let cut : Request := { source := .text "\x7b\"rows\": []", rootName := "Root" }
    let problem : SyntaxError := .problem .expectingComma { line := 1, column := 12, offset := 11 }
    (request.rootName.isEmpty = false ∧ request.options.Validated ∧ value.depth = 4) ∧
      ((∃ w ∈ value.parts, w.isUndecodable = true) ∧
        (request.run none).1 = .error (.unsupportedValue .set)) ∧
      (cut.run none).1 = .ok (.failed (.invalid problem)) := by
  let _ := Lenient.decoder
  intro value request cut problem
  have hname : request.rootName.isEmpty = false := by decide
  have hoptions : request.options.Validated := by decide
  obtain ⟨hviolation, hfirst, -⟩ :=
    ((request.outcome_of_uncancelled hname hoptions Lenient.returnsDecoded).2.1 _ rfl).2 (by decide)
  have hrun := (hfirst (.unsupportedValue .set)).mpr (by decide)
  have hparse : Document.parse cut.options "\x7b\"rows\": []" = .error (.invalid problem) := by cbv
  refine ⟨⟨hname, hoptions, by decide⟩, ⟨hviolation.mp ⟨_, rfl, hrun⟩, hrun⟩, ?_⟩
  exact (((cut.outcome_of_uncancelled hname hoptions Lenient.returnsDecoded).1 _ rfl).2.2 _).mpr hparse

end JsonShape
