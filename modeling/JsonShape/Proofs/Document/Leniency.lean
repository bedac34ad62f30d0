import JsonShape.Inference
import JsonShape.Proofs.Document.LenientRecognition
import JsonShape.Proofs.Document.Strictness

/-!
# Lenient parsing extends strict parsing

The grammar of lenient documents extends that of strict documents: whatever is a value by the one is the same
value by the other, unless it escapes half of a surrogate pair, of which JSON5 makes no pairs. The proof goes
through the relations of the strict grammar one by one, and through values by induction on how deep they nest.
Hence turning on a lenient option changes nothing about a text that is parsed without, whatever decoder of JSON5
is behind it, if it follows the grammar.
-/

namespace JsonShape.Grammar

open Json5 (Gap)

variable {s t w : List Char}

/-! ### The parts of values -/

theorem Blanks.gap (h : Blanks w) : Gap w := by
  induction w with
  | nil => exact .nil
  | cons c w ih =>
    obtain ⟨hc, hw⟩ := List.forall_mem_cons.mp h
    refine .space ?_ (ih hw)
    rcases hc with rfl | rfl | rfl | rfl
    · exact .inr (.inr (.inr (.inr (.inr rfl))))
    · exact .inr (.inl rfl)
    · exact .inl (.inl rfl)
    · exact .inl (.inr (.inl rfl))

/-- A strict escape is one of the lenient escapes that stand for something else, or stands for itself. -/
theorem escape_cases {e c : Char} (h : (e, c) ∈ escapes) :
    (e, c) ∈ Json5.escapes ∨ Json5.Verbatim e ∧ e = c := by
  simp only [escapes, List.mem_cons, Prod.mk.injEq, List.not_mem_nil, or_false] at h
  rcases h with ⟨rfl, rfl⟩ | ⟨rfl, rfl⟩ | ⟨rfl, rfl⟩ | ⟨rfl, rfl⟩ | ⟨rfl, rfl⟩ | ⟨rfl, rfl⟩ | ⟨rfl, rfl⟩ |
    ⟨rfl, rfl⟩
  case inl | inr.inl | inr.inr.inl => exact .inr ⟨by simp [Json5.Verbatim, Json5.LineEnd, Json5.escapes], rfl⟩
  all_goals exact .inl (by decide)

/-- What stands in a strict string stands in a lenient one for the same characters, if no half of a pair is
escaped. -/
theorem Units.chars {us : List Nat} (h : Units t us) (hus : ∀ u ∈ us, ¬Half u) :
    Json5.Chars '"' t (us.map Char.ofNat) := by
  induction h with
  | nil => exact .nil
  | @plain c _ us hquote hslash hcontrol _ ih =>
    obtain ⟨-, hus⟩ := List.forall_mem_cons.mp hus
    have hline : c ≠ '\n' ∧ c ≠ '\r' := by constructor <;> (rintro rfl; revert hcontrol; decide)
    rw [List.map_cons, Char.ofNat_toNat]
    exact .plain hquote hslash hline (ih hus)
  | @escape e c _ us hc _ ih =>
    have hrest := ih (List.forall_mem_cons.mp hus).2
    rw [List.map_cons, Char.ofNat_toNat]
    rcases escape_cases hc with hescape | ⟨hverbatim, rfl⟩
    · exact .escape hescape hrest
    · exact .verbatim hverbatim hrest
  | unicode hd₁ hd₂ hd₃ hd₄ _ ih =>
    obtain ⟨hhalf, hus⟩ := List.forall_mem_cons.mp hus
    exact .unicode (.mk hd₁ hd₂ hd₃ hd₄ hhalf) (ih hus)

theorem Quoted.json5 {text : String} (h : Quoted t text) (ht : WholeUnits t) : Json5.Quoted t text := by
  cases h with
  | @mk s us _ hs hjoined =>
    have hus := hs.not_half ht
    refine .mk (.inl rfl) ?_
    rw [hjoined.eq_map hus]
    exact hs.chars hus

theorem Minus.sign {negative : Bool} (h : Minus t negative) : Sign t negative := by
  cases h with
  | absent => exact .absent
  | minus => exact .minus

/-- A number with a fraction or an exponent is one with a point or one with an exponent alone. -/
theorem number_json5 {whole f e : List Char} {fraction : Option (List Char)} {exponent : Option Int}
    (hwhole : Whole whole) (hf : Fraction f fraction) (he : Exponent e exponent)
    (hsome : fraction ≠ none ∨ exponent ≠ none) (negative : Bool) :
    Json5.Number negative (whole ++ (f ++ e))
      (.float (decimal negative whole (fraction.getD []) (exponent.getD 0))) 0 := by
  cases hf with
  | absent =>
    obtain ⟨x, rfl⟩ := Option.ne_none_iff_exists'.mp (hsome.resolve_left fun h => h rfl)
    exact .exponent hwhole he
  | point hdigits => exact .point hwhole hdigits.2 he

/-! ### Values -/

theorem Listed.json5 {α : Type} {Part Part' : List Char → α → Nat → Nat → Prop} {level : Nat}
    (hpart : ∀ t a d n, Part t a d n → n ≤ level → Part' t a d n) {as : List α} {d n : Nat}
    (h : Listed Part t as d n) (hn : n ≤ level) : Json5.Listed Part' t as d n := by
  induction h with
  | single h => exact .single (hpart _ _ _ _ h hn)
  | cons h hw hw' _ ih =>
    have hfirst := hpart _ _ _ _ h ((le_max_left ..).trans hn)
    exact .cons hfirst hw.gap hw'.gap (ih ((le_max_right ..).trans hn))

/-- A member is one of a lenient document if its value is: its key and its value have no escape for half of a pair,
as the member has none. -/
theorem Member.json5 {m : String × Value} {d n : Nat} (h : Member t m d n) (ht : WholeUnits t)
    (hvalue : ∀ {u : List Char} {v : Value}, Derives u v d n → WholeUnits u → Json5.Derives u v d n) :
    Json5.Member t m d n := by
  cases h with
  | mk hkey hw hw' hv =>
    have hcolon : ∀ c ∈ [':'], Plain c := List.forall_mem_singleton.mpr (by decide)
    obtain ⟨hk, hs⟩ := hkey.separate.wholeUnits_append.mp ht
    rw [wholeUnits_of_plain_append hw.plain, ← List.singleton_append, wholeUnits_of_plain_append hcolon,
      wholeUnits_of_plain_append hw'.plain] at hs
    exact .mk (.quoted (hkey.json5 hk)) hw.gap hw'.gap (hvalue hv hs)

/-- A value of the strict grammar is the same value by that of lenient documents, by induction on how deep it
nests. -/
theorem Derives.json5 {v : Value} {d n : Nat} (h : Derives t v d n) (ht : WholeUnits t) :
    Json5.Derives t v d n := by
  induction n using Nat.strongRecOn generalizing t v d with
  | ind n ih =>
    cases h with
    | null => exact .null
    | true => exact .true
    | false => exact .false
    | int hsign hwhole => exact .number hsign.sign (.int hwhole)
    | decimal hsign hwhole hf he hsome => exact .number hsign.sign (number_json5 hwhole hf he hsome _)
    | str h => exact .str (h.json5 ht)
    | emptyArr hw => exact .emptyArr hw.gap
    | emptyObj hw => exact .emptyObj hw.gap
    | @arr _ _ _ _ _ level hw h hw' =>
      have hwhole := h.wholeUnits_of_enclosed (fun _ _ _ _ h => h.separate) (by decide) hw ht
      have hitems := hwhole.json5 (fun _ _ _ k ⟨hv, hu⟩ hk => ih k (Nat.lt_succ_of_le hk) hv hu) le_rfl
      exact .arr hw.gap hitems (.gap hw'.gap)
    | @obj _ _ _ _ _ level hw h hw' =>
      have hwhole := h.wholeUnits_of_enclosed (fun _ _ _ _ h => h.separate) (by decide) hw ht
      have hmembers := hwhole.json5 (fun _ _ _ k ⟨hm, hu⟩ hk => hm.json5 hu (ih k (Nat.lt_succ_of_le hk))) le_rfl
      exact .obj hw.gap hmembers (.gap hw'.gap)

theorem Document.json5 {v : Value} {d n : Nat} (h : Document t v d n) (ht : WholeUnits t) :
    Json5.Document t v d n := by
  cases h with
  | mk hw h hw' =>
    have hs := (h.separate.wholeUnits_append.mp ((wholeUnits_of_plain_append hw.plain).mp ht)).1
    exact .mk hw.gap (h.json5 hs) (.gap hw'.gap)

end JsonShape.Grammar

namespace JsonShape.Document

variable [Json5Decoder] {levels : Nat}

/-- What a text is parsed as with both lenient options off it is parsed as with one of them or both on. -/
theorem parse_eq_of_lenient (hjson5 : Json5Decoder.Follows levels) {options options' : ParserOptions}
    (hstrict : options.lenient = false) (hlenient : options'.lenient = true)
    (hlimit : options'.maxNestingDepth = options.maxNestingDepth) {text : String}
    (hescapes : Grammar.WholeUnits (unmarked text)) (hnesting : Grammar.nesting (unmarked text) ≤ levels)
    {ms : List (Key × Value)} (h : parse options text = .ok ms) : parse options' text = .ok ms := by
  rw [parse_eq_of_strict hstrict] at h
  split at h
  · cases h
  · cases h
  · next v hv =>
    obtain ⟨d, n, hdocument, hd, -⟩ := Strict.decode_eq_ok_iff.mp hv
    have hn : n ≤ levels := hdocument.le_nesting.trans hnesting
    have hread := hjson5 (unmarked text) v ⟨d, n, hdocument.json5 hescapes, hd, hn⟩
    rw [parse, dropMarks_eq, decode, hlenient, if_pos rfl, hread, hlimit]
    exact h

/-- **Lenient parsing extends strict parsing.** Whatever the limit of nesting, a text that is parsed with both
lenient options off is parsed as the same object with one of them or both on, if no string in it has an escape
for half of a surrogate pair and it nests no deeper than the levels on which the decoder of JSON5 follows its
grammar. So a pass over the text does the same, whichever of the options are on. -/
theorem parse_lenient_of_strict (hjson5 : Json5Decoder.Follows levels) {options options' : ParserOptions}
    (hstrict : options.allowTrailingCommas = false ∧ options.allowComments = false)
    (hlenient : options'.allowTrailingCommas = true ∨ options'.allowComments = true)
    (hlimit : options'.maxNestingDepth = options.maxNestingDepth) {text : String}
    (hescapes : Grammar.WholeUnits (unmarked text)) (hnesting : Grammar.nesting (unmarked text) ≤ levels)
    {ms : List (Key × Value)} (h : parse options text = .ok ms) :
    parse options' text = .ok ms ∧ ∀ rootName scope signal,
      Request.run { source := .text text, rootName, scope, options := options' } signal =
        Request.run { source := .text text, rootName, scope, options } signal := by
  have hoff : options.lenient = false := by simp [ParserOptions.lenient, hstrict]
  have hon : options'.lenient = true := by simpa [ParserOptions.lenient] using hlenient
  have hparse := parse_eq_of_lenient hjson5 hoff hon hlimit hescapes hnesting h
  refine ⟨hparse, fun rootName scope signal => ?_⟩
  have hmembers : (Source.text text).members options' = (Source.text text).members options := by
    simp only [Source.members, hparse, h, hlimit]
  have hinfer : inferTree { source := .text text, rootName, scope, options := options' } =
      inferTree { source := .text text, rootName, scope, options } := by
    simp only [inferTree, hmembers]
  rw [Request.run, Request.run, hinfer]

omit [Json5Decoder] in
/-- Behind a byte order mark, within 30 levels: an escaped slash and an escaped letter, numbers of all forms, a key
that comes twice with an object and a text, and in the text what is no escape, since its backslash is escaped. -/
theorem parse_lenient_of_strict_escaped :
    letI := Lenient.decoder
    let text := "\uFEFF\x7b\"a\\/\\u00e9\":[-0,1E5,0.50],\t\"b\":\x7b\"x\":[]\x7d ,\"b\":\"//\\\\ud800\"\x7d\n"
    let ms : List (Key × Value) := [
      (.text "a/é", .arr [.int 0, .float (.finite false 1 5), .float (.finite false 50 (-2))]),
      (.text "b", .str "//\\ud800")]
    Json5Decoder.Follows 30 ∧ Grammar.WholeUnits (unmarked text) ∧ Grammar.nesting (unmarked text) ≤ 30 ∧
      parse {} text = .ok ms ∧ parse { allowComments := true } text = .ok ms := by
  let _ := Lenient.decoder
  intro text ms
  have hjson5 : Json5Decoder.Follows 30 := Lenient.follows (by decide)
  have hescaped : Grammar.escapedUnits false (unmarked text) = [0xe9] := by cbv
  have hescapes : Grammar.WholeUnits (unmarked text) := by
    simp [Grammar.WholeUnits, hescaped, Grammar.Half, Grammar.High, Grammar.Low]
  have hnesting : Grammar.nesting (unmarked text) ≤ 30 := by cbv
  have hparse : parse {} text = .ok ms := by cbv
  have hstrict : ({} : ParserOptions).allowTrailingCommas = false ∧ ({} : ParserOptions).allowComments = false :=
    ⟨rfl, rfl⟩
  have hlenient : ({ allowComments := true } : ParserOptions).allowTrailingCommas = true ∨
      ({ allowComments := true } : ParserOptions).allowComments = true := .inr rfl
  obtain ⟨hread, -⟩ := parse_lenient_of_strict hjson5 hstrict hlenient rfl hescapes hnesting hparse
  exact ⟨hjson5, hescapes, hnesting, hparse, hread⟩

end JsonShape.Document
