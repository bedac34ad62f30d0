import JsonShape.Proofs.KeyedList
import JsonShape.Settings.Load
import Mathlib

/-!
# What is known of a validator

The fields of the sections as a table, with what each of them takes, and what the documentation of the library
says of a validator.

* `Field`, `Section`, `Settings.sections` — the fields as they are declared.
* `Validator.Constructs` — a section is made of the values given for its fields, which go before the variables,
  and these before the defaults; it knows no fields but its own.
* `Validator.Documented` — all that is assumed of a validator. Values of a field's own type are taken as they
  are, and the variable of a name is found whatever its case.
* `ParserOptions.validated_iff` — the options that a validator makes are those with a limit of nesting that may
  be set.
-/

namespace JsonShape

/-! ### Fields -/

/-- A field is read as its default, or as what its raw value is coerced to. -/
theorem RawFields.read_eq_some {raw : RawFields} {α : Type} {name : String} {coerce : Value → Option α}
    {default a : α} (h : raw.read name coerce default = some a) : a = default ∨ ∃ v, coerce v = some a := by
  unfold RawFields.read at h
  split at h
  · exact .inl (Option.some.inj h).symm
  · next v _ => exact .inr ⟨v, h⟩

/-- A field of a section: what it takes of a raw value, and its default. -/
structure Field where
  name : String
  coerce : Value → Option Value
  default : Value

namespace Field

/-- A field that takes values of a type, which are shown as JSON values. -/
def of {α : Type} (shown : α → Value) (name : String) (coerce : Value → Option α) (default : α) : Field where
  name := name
  coerce v := (coerce v).map shown
  default := shown default

@[simp] theorem of_name {α : Type} {shown : α → Value} {name : String} {coerce : Value → Option α}
    {default : α} : (Field.of shown name coerce default).name = name := rfl

/-- The value of a field: coerced from its raw value, or the default. -/
def read (f : Field) (raw : RawFields) : Option Value := raw.read f.name f.coerce f.default

@[simp] theorem read_of {α : Type} {shown : α → Value} {name : String} {coerce : Value → Option α} {default : α}
    {raw : RawFields} :
    (Field.of shown name coerce default).read raw = (raw.read name coerce default).map shown := by
  unfold read of RawFields.read
  cases raw name <;> rfl

/-- A field is read from the raw value of its own name alone. -/
theorem read_congr {f : Field} {raw raw' : RawFields} (h : raw f.name = raw' f.name) :
    f.read raw = f.read raw' := by
  rw [read, read, RawFields.read, RawFields.read, h]

theorem read_of_some {f : Field} {raw : RawFields} {v : Value} (h : raw f.name = some v) :
    f.read raw = f.coerce v := by
  rw [read, RawFields.read, h]

/-- Fields and the values that are read for them, one by one. -/
def ReadAll (raw : RawFields) : List Field → List (String × Value) → Prop :=
  List.Forall₂ fun f (name, v) => f.name = name ∧ f.read raw = some v

/-- Where no two fields share a name, each field's value is the one under its name. -/
theorem ReadAll.lookup {raw : RawFields} {fields : List Field} {values : List (String × Value)}
    (h : ReadAll raw fields values) (hnames : (fields.map (·.name)).Nodup) {f : Field} (hf : f ∈ fields) :
    ∃ v, values.lookup f.name = some v ∧ f.read raw = some v := by
  induction h with
  | nil => cases hf
  | @cons g entry fields values hentry hrest ih =>
    obtain ⟨name, v⟩ := entry
    obtain ⟨rfl, hv⟩ := hentry
    obtain ⟨hg, hnames⟩ := List.nodup_cons.mp hnames
    rcases List.mem_cons.mp hf with rfl | hf
    · exact ⟨v, by simp, hv⟩
    · have hne : f.name ≠ g.name := ne_of_mem_of_not_mem (List.mem_map_of_mem hf) hg
      obtain ⟨w, hw, hread⟩ := ih hnames hf
      exact ⟨w, by rw [List.lookup_cons, beq_false_of_ne hne]; exact hw, hread⟩

/-- Fields and values of theirs that they take as they are, one by one. -/
def Own : List Field → List (String × Value) → Prop :=
  List.Forall₂ fun f (name, v) => f.name = name ∧ f.coerce v = some v

theorem Own.map_name {fields : List Field} {values : List (String × Value)} (h : Own fields values) :
    values.map (·.1) = fields.map (·.name) := by
  induction h with
  | nil => rfl
  | cons h _ ih => rw [List.map_cons, List.map_cons, ih, h.1]

theorem Own.readAll {fields : List Field} {values : List (String × Value)} (h : Own fields values)
    {raw : RawFields} (hraw : ∀ entry ∈ values, raw entry.1 = some entry.2) : ReadAll raw fields values := by
  induction h with
  | nil => exact .nil
  | cons h _ ih =>
    obtain ⟨hentry, hraw⟩ := List.forall_mem_cons.mp hraw
    refine .cons ⟨h.1, ?_⟩ (ih hraw)
    rw [read_of_some (h.1 ▸ hentry), h.2]

end Field

section

variable [Validator]

/-- The parser's fields. -/
def ParserOptions.schema : List Field :=
  let d : ParserOptions := {}
  [.of .bool "allow_trailing_commas" Validator.toBool? d.allowTrailingCommas,
   .of .bool "allow_comments" Validator.toBool? d.allowComments,
   .of .int "max_nesting_depth" (fun v => (Validator.toInt? v).filter isNestingLimit) d.maxNestingDepth]

/-- The output's fields. -/
def OutputOptions.schema : List Field :=
  let d : OutputOptions := {}
  [.of .bool "file_scoped_namespaces" Validator.toBool? d.fileScopedNamespaces,
   .of .bool "emit_documentation" Validator.toBool? d.emitDocumentation,
   .of .bool "emit_nullable_annotations" Validator.toBool? d.emitNullable,
   .of .bool "emit_end_of_block_markers" Validator.toBool? d.emitEndMarkers,
   .of .bool "allow_reading_from_string" Validator.toBool? d.allowReadingFromString,
   .of .bool "allow_named_floating_point_literals" Validator.toBool? d.allowNamedLiterals,
   .of .bool "write_as_string" Validator.toBool? d.writeAsString]

/-- The server's fields. -/
def ServerOptions.schema : List Field :=
  let d : ServerOptions := {}
  [.of .str "logging_level" Validator.toText? d.loggingLevel,
   .of .str "transport" (Validator.toOneOf? transports) d.transport,
   .of .str "host" Validator.toText? d.host,
   .of .int "port" Validator.toInt? d.port]

section

variable {raw : RawFields}

theorem ParserOptions.readAll_iff {o : ParserOptions} : Field.ReadAll raw schema o.fields ↔
    raw.read "allow_trailing_commas" Validator.toBool? false = some o.allowTrailingCommas ∧
    raw.read "allow_comments" Validator.toBool? false = some o.allowComments ∧
    raw.read "max_nesting_depth" (fun v => (Validator.toInt? v).filter isNestingLimit) 64 =
      some o.maxNestingDepth := by
  simp [Field.ReadAll, schema, fields]

theorem OutputOptions.readAll_iff {o : OutputOptions} : Field.ReadAll raw schema o.fields ↔
    raw.read "file_scoped_namespaces" Validator.toBool? true = some o.fileScopedNamespaces ∧
    raw.read "emit_documentation" Validator.toBool? true = some o.emitDocumentation ∧
    raw.read "emit_nullable_annotations" Validator.toBool? true = some o.emitNullable ∧
    raw.read "emit_end_of_block_markers" Validator.toBool? false = some o.emitEndMarkers ∧
    raw.read "allow_reading_from_string" Validator.toBool? false = some o.allowReadingFromString ∧
    raw.read "allow_named_floating_point_literals" Validator.toBool? false = some o.allowNamedLiterals ∧
    raw.read "write_as_string" Validator.toBool? false = some o.writeAsString := by
  simp [Field.ReadAll, schema, fields]

theorem ServerOptions.readAll_iff {o : ServerOptions} : Field.ReadAll raw schema o.fields ↔
    raw.read "logging_level" Validator.toText? "INFO" = some o.loggingLevel ∧
    raw.read "transport" (Validator.toOneOf? transports) "stdio" = some o.transport ∧
    raw.read "host" Validator.toText? "127.0.0.1" = some o.host ∧
    raw.read "port" Validator.toInt? 8384 = some o.port := by
  simp [Field.ReadAll, schema, fields]

end

end

/-- A section: its name, its fields and their values among settings. -/
structure Section where
  name : String
  schema : List Field
  values : Settings → List (String × Value)

namespace Settings

variable [Validator]

/-- The sections of settings. -/
def sections : List Section :=
  [⟨"parser", ParserOptions.schema, (·.parser.fields)⟩,
   ⟨"output", OutputOptions.schema, (·.output.fields)⟩,
   ⟨"server", ServerOptions.schema, (·.server.fields)⟩]

theorem nodup_names : ∀ part ∈ sections, (part.schema.map (·.name)).Nodup := by
  simp [sections, ParserOptions.schema, OutputOptions.schema, ServerOptions.schema]

end Settings

/-! ### Validators -/

/-- A variable has a name, ignoring case. -/
def Environment.Has (env : Environment) (name x : String) : Prop :=
  ∃ v ∈ env, Text.lower v.1 = Text.lower name ∧ v.2 = x

namespace Validator

variable [Validator]

/-- The raw values that variables give the fields of a section. -/
def fromVariables (env : Environment) (part : String) : RawFields := fun name =>
  (find? env (variableName part name)).map .str

/-- A function makes a section of values given for its fields and of the variables. It fails just if a value is
given under a name that is none of the section's fields, or a field does not take its value: the one given, else
that of the variable. A field without either has its default. -/
def Constructs {α : Type} (construct : List (String × Value) → Environment → Option α) (part : String)
    (schema : List Field) (values : α → List (String × Value)) : Prop :=
  ∀ given env o, construct given env = some o ↔
    (∀ entry ∈ given, entry.1 ∈ schema.map (·.name)) ∧
      Field.ReadAll (fun name => (given.lookup name).or (fromVariables env part name)) schema (values o)

/-- A section is made of its own values, whatever the variables are. -/
theorem Constructs.construct_values {α : Type} {construct : List (String × Value) → Environment → Option α}
    {part : String} {schema : List Field} {values : α → List (String × Value)}
    (h : Constructs construct part schema values) (hnames : (schema.map (·.name)).Nodup) {o : α}
    (howns : Field.Own schema (values o)) (env : Environment) : construct (values o) env = some o := by
  refine (h _ _ _).mpr ⟨fun entry hentry => ?_, howns.readAll fun entry hentry => ?_⟩
  · rw [← howns.map_name]
    exact List.mem_map_of_mem hentry
  · rw [lookup_of_mem (by rwa [howns.map_name]) hentry, Option.some_or]

/-- What the documentation says of a validator. -/
structure Documented : Prop where
  /-- Flags, integers and texts are taken as they are, and so are the texts that a field is limited to. -/
  toBool?_bool (b : Bool) : toBool? (.bool b) = some b
  toInt?_int (n : Int) : toInt? (.int n) = some n
  toText?_str (s : String) : toText? (.str s) = some s
  toOneOf?_str (texts : List String) (s : String) :
    toOneOf? texts (.str s) = if s ∈ texts then some s else none
  /-- The variable of an ASCII name is found if there is one, ignoring case. -/
  find?_eq_none_iff {env : Environment} {name : String} (hname : ∀ c ∈ name.toList, c.toNat < 128) :
    find? env name = none ↔ ∀ x, ¬ env.Has name x
  has_of_find? {env : Environment} {name x : String} (hname : ∀ c ∈ name.toList, c.toNat < 128)
    (h : find? env name = some x) : env.Has name x
  /-- Each section is made by its fields. -/
  parser : Constructs parser? "parser" ParserOptions.schema ParserOptions.fields
  output : Constructs output? "output" OutputOptions.schema OutputOptions.fields
  server : Constructs server? "server" ServerOptions.schema ServerOptions.fields
  /-- Sections that are given go before the variables of whole sections, of which one may be wrong. -/
  settings_eq {s s' : Settings} {env : Environment} (h : settings s env = .ok s') : s' = s
  settings_ok {s : Settings} {env : Environment}
    (h : ∀ part ∈ Settings.sections, find? env ("JSON_TYPEGEN_" ++ part.name) = none) :
    settings s env = .ok s
  /-- Settings are shown section by section, field by field. -/
  dump_eq (s : Settings) : dump s = s.toValue

end Validator

/-! ### Validated options -/

/-- The options of a parser whose limit of nesting is one that may be set. -/
def ParserOptions.Validated (o : ParserOptions) : Prop :=
  1 ≤ o.maxNestingDepth ∧ o.maxNestingDepth ≤ maxNestingLimit

instance (o : ParserOptions) : Decidable o.Validated := inferInstanceAs (Decidable (_ ∧ _))

theorem ParserOptions.Validated.nonneg {o : ParserOptions} (h : o.Validated) : 0 ≤ o.maxNestingDepth := by
  have := h.1
  omega

theorem ParserOptions.isNestingLimit_iff {o : ParserOptions} :
    isNestingLimit o.maxNestingDepth = true ↔ o.Validated := by
  rw [isNestingLimit, Bool.and_eq_true, decide_eq_true_eq, decide_eq_true_eq, Validated]

section

variable [Validator]

theorem ParserOptions.own_fields (hdoc : Validator.Documented) {o : ParserOptions} (h : o.Validated) :
    Field.Own ParserOptions.schema o.fields := by
  simp [Field.Own, schema, fields, Field.of, hdoc.toBool?_bool, hdoc.toInt?_int, isNestingLimit_iff.mpr h]

theorem OutputOptions.own_fields (hdoc : Validator.Documented) (o : OutputOptions) :
    Field.Own OutputOptions.schema o.fields := by
  simp [Field.Own, schema, fields, Field.of, hdoc.toBool?_bool]

theorem ServerOptions.own_fields (hdoc : Validator.Documented) {o : ServerOptions} (h : o.transport ∈ transports) :
    Field.Own ServerOptions.schema o.fields := by
  simp [Field.Own, schema, fields, Field.of, hdoc.toText?_str, hdoc.toInt?_int, hdoc.toOneOf?_str, h]

/-- The validated options are those that a validator makes. -/
theorem ParserOptions.validated_iff (hdoc : Validator.Documented) {o : ParserOptions} :
    o.Validated ↔ ∃ given env, Validator.parser? given env = some o := by
  constructor
  · intro h
    exact ⟨o.fields, [], hdoc.parser.construct_values (by simp [schema]) (own_fields hdoc h) []⟩
  · rintro ⟨given, env, h⟩
    obtain ⟨-, hread⟩ := (hdoc.parser given env o).mp h
    obtain ⟨-, -, hlimit⟩ := readAll_iff.mp hread
    rcases RawFields.read_eq_some hlimit with hdefault | ⟨v, hv⟩
    · rw [← isNestingLimit_iff, hdefault]
      decide
    · exact isNestingLimit_iff.mp (Option.filter_eq_some_iff.mp hv).2

end

end JsonShape
