import JsonShape.Proofs.Document.Printing
import JsonShape.Proofs.Settings.Precedence
import JsonShape.Proofs.Settings.Validation

/-!
# Saved settings are loaded again

The text that valid settings are saved as is loaded as the same settings, where no variable has a say. Saving prints
a record of records, so the file is read back as it was printed. Each section is then given the values of its own
fields, and a field takes its own value, as the documentation of validators says.
-/

namespace JsonShape

/-! ### Texts without carriage returns -/

theorem Text.unifyLineEnds_of_not_mem {s : List Char} (h : '\r' ∉ s) : unifyLineEnds s = s := by
  fun_induction unifyLineEnds s with
  | case1 => rfl
  | case2 rest _ => exact absurd (List.mem_cons_self ..) h
  | case3 rest _ _ => exact absurd (List.mem_cons_self ..) h
  | case4 c rest _ _ ih => rw [ih fun hr => h (List.mem_cons_of_mem _ hr)]

/-! ### Variables of other programs -/

theorem Text.lower_append (s t : String) : lower (s ++ t) = lower s ++ lower t := by
  simp [lower, String.ofList_append]

theorem Text.upper_append (s t : String) : upper (s ++ t) = upper s ++ upper t := by
  simp [upper, String.ofList_append]

namespace Environment

/-- No variable has a name that starts with the prefix of the settings, ignoring case. -/
def Unrelated (env : Environment) : Prop :=
  ∀ v ∈ env, ¬ (Text.lower "JSON_TYPEGEN_").toList <+: (Text.lower v.1).toList

variable {env : Environment}

theorem Unrelated.not_has (h : env.Unrelated) (name x : String) : ¬ env.Has ("JSON_TYPEGEN_" ++ name) x := by
  rintro ⟨v, hv, hname, -⟩
  refine h v hv ?_
  rw [hname, Text.lower_append, String.toList_append]
  exact List.prefix_append ..

theorem Unrelated.not_hides (h : env.Unrelated) (part name : String) : ¬ env.hides part name := by
  intro hhides
  rw [hides, defines, List.any_eq_true] at hhides
  obtain ⟨v, hv, heq⟩ := hhides
  have hname : v.1 = Text.upper (variableName part name) := of_decide_eq_true heq
  have hupper : Text.upper "JSON_TYPEGEN_" = "JSON_TYPEGEN_" := by decide
  refine h v hv ?_
  rw [hname, variableName, String.append_assoc, String.append_assoc, Text.upper_append, hupper, Text.lower_append,
    String.toList_append]
  exact List.prefix_append ..

end Environment

/-! ### Sections -/

namespace Settings

theorem visible_of_unrelated {env : Environment} (henv : env.Unrelated) (part : String)
    (fields : List (String × Value)) : visible env part (fields.map fun (k, v) => (.text k, v)) = fields := by
  induction fields with
  | nil => rfl
  | cons f fields ih => rw [List.map_cons, visible_cons_of_not_hides (henv.not_hides part f.1), ih]

/-- A section with its own fields in the file is loaded from them. -/
theorem loadSection_of_unrelated [Validator] {α : Type}
    {construct : List (String × Value) → Environment → Option α} {part : String} {schema : List Field}
    {values : α → List (String × Value)} (hconstruct : Validator.Constructs construct part schema values)
    (hnames : (schema.map (·.name)).Nodup) {o : α} (howns : Field.Own schema (values o)) {env : Environment}
    (henv : env.Unrelated) {file : List (Key × Value)}
    (hfile : Value.member? file part = some (.record (values o))) :
    loadSection construct env file part = .ok o := by
  have hfields : fileFields env file part = .ok (values o) := by
    rw [fileFields_of_holdsSection (.inr (.inr ⟨_, hfile⟩)), sectionMembers, hfile]
    exact congrArg Except.ok (visible_of_unrelated henv part (values o))
  rw [loadSection, hfields]
  simp only [bind, Except.bind, hconstruct.construct_values hnames howns env]

/-- No variable stands for a whole section. -/
theorem find?_of_unrelated [Validator] (hdoc : Validator.Documented) {env : Environment} (henv : env.Unrelated) :
    ∀ part ∈ sections, Validator.find? env ("JSON_TYPEGEN_" ++ part.name) = none := by
  have hascii : ∀ name ∈ ["parser", "output", "server"],
      ("JSON_TYPEGEN_".toList ++ name.toList).all (·.toNat < 128) := by decide
  intro part hpart
  have hname : part.name ∈ ["parser", "output", "server"] := List.mem_map_of_mem (f := Section.name) hpart
  refine (hdoc.find?_eq_none_iff ?_).mpr (henv.not_has part.name)
  simpa only [String.toList_append, List.all_eq_true, decide_eq_true_eq] using hascii part.name hname

/-! ### What is saved -/

/-- Settings that may be set, with a port that has no more digits than an integer may have in a file. -/
structure Valid (s : Settings) : Prop where
  parser : s.parser.Validated
  transport : s.server.transport ∈ transports
  port : Decimal.digitCount s.server.port.natAbs ≤ maxIntegerDigits

/-- A record of decoded values under different keys is decoded. -/
theorem decoded_record {members : List (String × Value)} (hkeys : (members.map (·.1)).Nodup)
    (hmembers : ∀ m ∈ members, m.2.Decoded) : (Value.record members).Decoded := by
  refine Value.decoded_obj_iff.mpr ⟨fun m hm => ?_, ?_, fun m hm => ?_⟩
  · obtain ⟨m', -, rfl⟩ := List.mem_map.mp hm
    exact ⟨m'.1, rfl⟩
  · simpa [Function.comp_def] using hkeys.map (f := Key.text) fun _ _ h => Key.text.inj h
  · obtain ⟨m', hm', rfl⟩ := List.mem_map.mp hm
    exact hmembers m' hm'

theorem decoded_toValue (s : Settings) : s.toValue.Decoded := by
  refine decoded_record (by simp) ?_
  simp only [List.forall_mem_cons]
  refine ⟨decoded_record (by simp [ParserOptions.fields]) ?_,
    decoded_record (by simp [OutputOptions.fields]) ?_,
    decoded_record (by simp [ServerOptions.fields]) ?_, List.forall_mem_nil _⟩
  · simp [ParserOptions.fields, Value.Decoded.bool, Value.Decoded.int]
  · simp [OutputOptions.fields, Value.Decoded.bool]
  · simp [ServerOptions.fields, Value.Decoded.str, Value.Decoded.int]

theorem writable_record {digits : Nat} {members : List (String × Value)}
    (h : ∀ m ∈ members, ∀ w ∈ m.2.parts, w.Writable digits) :
    ∀ w ∈ (Value.record members).parts, w.Writable digits := by
  refine List.forall_mem_cons.mpr ⟨trivial, fun w hw => ?_⟩
  obtain ⟨m, hm, hw⟩ := Value.mem_partsOfMembers.mp hw
  obtain ⟨m', hm', rfl⟩ := List.mem_map.mp hm
  exact h m' hm' w hw

theorem writable_toValue {s : Settings} (h : s.Valid) : ∀ w ∈ s.toValue.parts, w.Writable maxIntegerDigits := by
  have hlimit : Decimal.digitCount s.parser.maxNestingDepth.natAbs ≤ maxIntegerDigits := by
    have hvalidated := h.parser
    unfold ParserOptions.Validated maxNestingLimit at hvalidated
    have hdigits : Decimal.digitCount s.parser.maxNestingDepth.natAbs ≤ 3 :=
      (Nat.length_toDigits_le_iff (by decide) (by decide)).mpr (by omega)
    exact hdigits.trans (by decide)
  refine writable_record ?_
  simp only [List.forall_mem_cons]
  refine ⟨writable_record ?_, writable_record ?_, writable_record ?_, List.forall_mem_nil _⟩
  · simp [ParserOptions.fields, Value.parts, Value.inside, Value.Writable, hlimit]
  · simp [OutputOptions.fields, Value.parts, Value.inside, Value.Writable]
  · simp [ServerOptions.fields, Value.parts, Value.inside, Value.Writable, h.port]

theorem depth_toValue (s : Settings) : s.toValue.depth = 2 := rfl

/-- The members of the object that the settings are saved as: their sections. -/
def members (s : Settings) : List (Key × Value) :=
  [(.text "parser", .record s.parser.fields), (.text "output", .record s.output.fields),
    (.text "server", .record s.server.fields)]

theorem fileMembers_save [Validator] (hdoc : Validator.Documented) {s : Settings} (h : s.Valid) (file : String) :
    fileMembers file (some s.save) = .ok s.members := by
  have hsave : s.save = Printer.print s.toValue := congrArg Printer.print (hdoc.dump_eq s)
  rw [hsave]
  have hreturn : '\r' ∉ (Printer.print s.toValue).toList := by
    intro hmem
    have hascii : ¬ Printer.Ascii '\r' := by decide
    exact hascii (Printer.ascii_print s.toValue _ hmem)
  have hdepth : s.toValue.depth ≤ Strict.maxLevels := by
    rw [depth_toValue]
    decide
  have hdecode : Strict.decode true (Printer.print s.toValue).toList = .ok s.toValue :=
    Printer.decode_print (decoded_toValue s) (writable_toValue h) hdepth true
  have hstart : (Printer.print s.toValue).toList.head? = some '\x7b' := by
    rw [Printer.print, String.toList_ofList]
    rfl
  exact fileMembers_of_decode hstart (Text.unifyLineEnds_of_not_mem hreturn) hdecode

/-- **Loading what was saved gives it back.** Settings that are valid are loaded from the text that they are saved as,
whatever characters their texts hold, if no variable is one of the settings. Of the validator only its documentation
is assumed. -/
theorem load_save [Validator] (hdoc : Validator.Documented) {s : Settings} (h : s.Valid) {env : Environment}
    (henv : env.Unrelated) (file : String) : load file (some s.save) env = .ok s := by
  have hnames : ∀ part ∈ sections, (part.schema.map (·.name)).Nodup := nodup_names
  simp only [sections, List.forall_mem_cons] at hnames
  obtain ⟨hparserNames, houtputNames, hserverNames, -⟩ := hnames
  have hparser : loadSection Validator.parser? env s.members "parser" = .ok s.parser :=
    loadSection_of_unrelated hdoc.parser hparserNames (ParserOptions.own_fields hdoc h.parser) henv rfl
  have houtput : loadSection Validator.output? env s.members "output" = .ok s.output :=
    loadSection_of_unrelated hdoc.output houtputNames (OutputOptions.own_fields hdoc s.output) henv rfl
  have hserver : loadSection Validator.server? env s.members "server" = .ok s.server :=
    loadSection_of_unrelated hdoc.server hserverNames (ServerOptions.own_fields hdoc h.transport) henv rfl
  have hsettings : Validator.settings s env = .ok s := hdoc.settings_ok (find?_of_unrelated hdoc henv)
  rw [load_eq_loadSections (fileMembers_save hdoc h file)]
  simp only [loadSections, hparser, houtput, hserver, bind, Except.bind]
  exact hsettings

/-- With texts that hold quotes, backslashes, control characters, among them the last of ASCII, and a character beyond
the first plane. -/
theorem load_save_escaped :
    letI := Standard.validator
    let s : Settings :=
      { parser := { maxNestingDepth := 256 }
        server := { loggingLevel := "\"\\\x00\r\n\x7f", transport := "sse", host := "é\uFFFF😀", port := -1 } }
    let env := [("PATH", "/bin"), ("json_typegen", "off")]
    s.Valid ∧ Environment.Unrelated env ∧ load "config.json" (some s.save) env = .ok s := by
  let _ := Standard.validator
  intro s env
  have hvalid : s.Valid := ⟨by decide, by decide, by decide⟩
  have henv : Environment.Unrelated env := by
    intro v hv
    simp only [env, List.mem_cons, List.not_mem_nil, or_false] at hv
    rcases hv with rfl | rfl <;> decide
  exact ⟨hvalid, henv, load_save Standard.documented hvalid henv "config.json"⟩

end Settings
end JsonShape
