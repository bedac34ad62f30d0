import JsonShape.Proofs.Document.Nesting
import JsonShape.Proofs.Settings.Validation

/-!
# Strict parsing

What becomes of a text with both lenient options off. It is parsed just when it is an object by the grammar
that keeps to the limits: on the digits of integers, on the nesting of the text, which the reader has, and on
the nesting of the object, which is an option. The last two differ where a key is repeated, since the object
has no more than the last value of a key.
-/

namespace JsonShape.Document

variable {options : ParserOptions} {text : String}

/-- A text without the byte order marks at its front. -/
def unmarked (text : String) : List Char := text.toList.dropWhile (· = '\uFEFF')

theorem dropMarks_eq (text : String) : dropMarks text.toList = unmarked text := by
  have h (c : Char) : c.toNat = 0xFEFF ↔ c = '\uFEFF' := Char.toNat_inj (d := '\uFEFF')
  simp only [dropMarks, unmarked, h]

/-- A text holds a value that the reader can decode: behind byte order marks it is the value by the grammar,
with integers of no more digits than may be and brackets that nest no deeper than the reader goes down. -/
def Holds (text : String) (v : Value) : Prop :=
  Grammar.Within Grammar.Document maxIntegerDigits Strict.maxLevels (unmarked text) v

section

variable [Json5Decoder] (hstrict : options.lenient = false)
include hstrict

theorem parse_eq_of_strict (text : String) :
    parse options text =
      match Strict.decode false (unmarked text) with
      | .error (.invalid error) => .error (.invalid error)
      | .error .tooDeep => .error (.tooDeep options.maxNestingDepth)
      | .ok v => members options.maxNestingDepth v := by
  rw [parse, dropMarks_eq, decode, hstrict]
  rfl

theorem parse_eq_of_holds {v : Value} (h : Holds text v) :
    parse options text = members options.maxNestingDepth v := by
  rw [parse_eq_of_strict hstrict, Strict.decode_eq_ok_iff.mpr h]

theorem parse_eq_ok_iff (hoptions : options.Validated) {ms : List (Key × Value)} :
    parse options text = .ok ms ↔
      Holds text (.obj ms) ∧ ((Value.obj ms).depth : Int) ≤ options.maxNestingDepth := by
  constructor
  · intro h
    rw [parse_eq_of_strict hstrict] at h
    split at h
    · cases h
    · cases h
    · next v hv =>
      obtain ⟨rfl, hdepth⟩ := (members_eq_ok_iff hoptions.nonneg).mp h
      exact ⟨Strict.decode_eq_ok_iff.mp hv, hdepth⟩
  · rintro ⟨h, hdepth⟩
    rw [parse_eq_of_holds hstrict h]
    exact (members_eq_ok_iff hoptions.nonneg).mpr ⟨rfl, hdepth⟩

/-- A text on which the reader does not give up is too deep only as a value. -/
theorem parse_eq_tooDeep_iff (hoptions : options.Validated)
    (hnesting : Grammar.nesting (unmarked text) ≤ Strict.maxLevels) :
    parse options text = .error (.tooDeep options.maxNestingDepth) ↔
      ∃ v, Holds text v ∧ options.maxNestingDepth < v.depth := by
  have hmembers (v : Value) : members options.maxNestingDepth v = .error (.tooDeep options.maxNestingDepth) ↔
      options.maxNestingDepth < v.depth := by
    unfold members
    rw [Value.depthWithin_eq hoptions.nonneg]
    by_cases hdepth : (v.depth : Int) ≤ options.maxNestingDepth
    · cases v <;> simp [hdepth]
    · simp [hdepth, Int.not_le.mp hdepth]
  constructor
  · intro h
    rw [parse_eq_of_strict hstrict] at h
    split at h
    · cases h
    · next hdeep => exact absurd (Strict.lt_nesting_of_decode hdeep) (Nat.not_lt.mpr hnesting)
    · next v hv => exact ⟨v, Strict.decode_eq_ok_iff.mp hv, (hmembers v).mp h⟩
  · rintro ⟨v, h, hdepth⟩
    rw [parse_eq_of_holds hstrict h]
    exact (hmembers v).mpr hdepth

end

/-- With both lenient options off, a text is parsed just when it is an object by the grammar within the limits,
and as that object. Any other text is a fault of the document; unless it nests deeper than the reader goes down,
the fault is one of depth just if the text is a value by the grammar that nests deeper than the option allows. -/
theorem parse_eq_ok_iff_holds [Json5Decoder] (hcommas : options.allowTrailingCommas = false)
    (hcomments : options.allowComments = false) (hoptions : options.Validated) (text : String) :
    (∀ ms, parse options text = .ok ms ↔
      Holds text (.obj ms) ∧ ((Value.obj ms).depth : Int) ≤ options.maxNestingDepth) ∧
    ((¬∃ ms, Holds text (.obj ms) ∧ ((Value.obj ms).depth : Int) ≤ options.maxNestingDepth) →
      ∃ fault, parse options text = .error fault ∧
        (fault.errorType = "ParseError" ∨ fault.errorType = "DepthExceededError")) ∧
    (Grammar.nesting (unmarked text) ≤ Strict.maxLevels →
      (parse options text = .error (.tooDeep options.maxNestingDepth) ↔
        ∃ v, Holds text v ∧ options.maxNestingDepth < v.depth)) := by
  have hstrict : options.lenient = false := by
    rw [ParserOptions.lenient, hcommas, hcomments]
    rfl
  refine ⟨fun ms => parse_eq_ok_iff hstrict hoptions, fun hnone => ?_, parse_eq_tooDeep_iff hstrict hoptions⟩
  cases hparse : parse options text with
  | ok ms => exact absurd ⟨ms, (parse_eq_ok_iff hstrict hoptions).mp hparse⟩ hnone
  | error fault =>
    refine ⟨fault, rfl, ?_⟩
    cases fault with
    | invalid | notAnObject => exact .inl rfl
    | tooDeep => exact .inr rfl

/-- With one level allowed: an object behind a byte order mark, with a pair of surrogates, a number with an
exponent and a repeated key, under which an array is written that the object does not have; and one that has
the array. -/
theorem parse_eq_ok_iff_holds_repeated :
    ({ maxNestingDepth := 1 } : ParserOptions).allowTrailingCommas = false ∧
    ({ maxNestingDepth := 1 } : ParserOptions).allowComments = false ∧
    ({ maxNestingDepth := 1 } : ParserOptions).Validated ∧
    Holds "\uFEFF\x7b\"a\":[1e2],\"\\ud83d\\ude00\":-0 ,\"a\":null\x7d"
      (.obj [(.text "a", .null), (.text "😀", .int 0)]) ∧
    Grammar.nesting (unmarked "\x7b\"a\":[]\x7d") ≤ Strict.maxLevels ∧
    ∃ v, Holds "\x7b\"a\":[]\x7d" v ∧ 1 < (v.depth : Int) := by
  -- no lenient option is on, so any decoder of JSON5 will do
  obtain ⟨json5⟩ : Nonempty Json5Decoder := ⟨⟨fun _ => .error .tooDeep⟩⟩
  have hparse : parse { maxNestingDepth := 1 }
      "\uFEFF\x7b\"a\":[1e2],\"\\ud83d\\ude00\":-0 ,\"a\":null\x7d" =
      .ok [(.text "a", .null), (.text "😀", .int 0)] := by cbv
  have hdeep : parse { maxNestingDepth := 1 } "\x7b\"a\":[]\x7d" = .error (.tooDeep 1) := by cbv
  have hnesting : Grammar.nesting (unmarked "\x7b\"a\":[]\x7d") ≤ Strict.maxLevels := by cbv
  have hvalid : ({ maxNestingDepth := 1 } : ParserOptions).Validated := by decide
  obtain ⟨hholds, -⟩ := ((parse_eq_ok_iff_holds rfl rfl hvalid _).1 _).mp hparse
  obtain ⟨-, -, htooDeep⟩ := parse_eq_ok_iff_holds rfl rfl hvalid "\x7b\"a\":[]\x7d"
  exact ⟨rfl, rfl, hvalid, hholds, hnesting, (htooDeep hnesting).mp hdeep⟩

end JsonShape.Document
