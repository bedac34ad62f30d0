import JsonShape.Proofs.Correspondence
import JsonShape.Proofs.Settings.Validation
import JsonShape.Settings.Standard
import Mathlib

/-!
# The standard validator keeps to the documentation

The validator with which the program is run does what is assumed of validators, so the assumptions can be met.
-/

namespace JsonShape.Standard

/-! ### Variables -/

theorem find?_eq_none_iff {env : Environment} {name : String} :
    find? env name = none ↔ ∀ x, ¬ env.Has name x := by
  rw [find?, Option.map_eq_none_iff, List.find?_eq_none]
  simp only [List.mem_reverse, decide_eq_true_eq, Environment.Has]
  exact ⟨fun h x ⟨v, hv, hname, _⟩ => h v hv hname, fun h v hv hname => h v.2 ⟨v, hv, hname, rfl⟩⟩

theorem has_of_find? {env : Environment} {name x : String} (h : find? env name = some x) :
    env.Has name x := by
  obtain ⟨v, hv, rfl⟩ := Option.map_eq_some_iff.mp h
  have hname := List.find?_some hv
  exact ⟨v, List.mem_reverse.mp (List.mem_of_find?_eq_some hv), of_decide_eq_true hname, rfl⟩

/-! ### Sections -/

section

variable {raw : RawFields}

theorem parserOptions?_eq_some_iff {o : ParserOptions} :
    parserOptions? raw = some o ↔ Field.ReadAll raw (@ParserOptions.schema validator) o.fields := by
  rw [@ParserOptions.readAll_iff validator]
  simp only [parserOptions?, Option.bind_eq_bind, Option.bind_eq_some_iff, Option.pure_def, Option.some.injEq]
  constructor
  · rintro ⟨_, hcommas, _, hcomments, _, hlimit, rfl⟩
    exact ⟨hcommas, hcomments, hlimit⟩
  · rintro ⟨hcommas, hcomments, hlimit⟩
    exact ⟨_, hcommas, _, hcomments, _, hlimit, rfl⟩

theorem outputOptions?_eq_some_iff {o : OutputOptions} :
    outputOptions? raw = some o ↔ Field.ReadAll raw (@OutputOptions.schema validator) o.fields := by
  rw [@OutputOptions.readAll_iff validator]
  simp only [outputOptions?, Option.bind_eq_bind, Option.bind_eq_some_iff, Option.pure_def, Option.some.injEq]
  constructor
  · rintro ⟨_, hscoped, _, hdocumentation, _, hnullable, _, hmarkers, _, hreading, _, hliterals, _, hwrite, rfl⟩
    exact ⟨hscoped, hdocumentation, hnullable, hmarkers, hreading, hliterals, hwrite⟩
  · rintro ⟨hscoped, hdocumentation, hnullable, hmarkers, hreading, hliterals, hwrite⟩
    exact ⟨_, hscoped, _, hdocumentation, _, hnullable, _, hmarkers, _, hreading, _, hliterals, _, hwrite, rfl⟩

theorem serverOptions?_eq_some_iff {o : ServerOptions} :
    serverOptions? raw = some o ↔ Field.ReadAll raw (@ServerOptions.schema validator) o.fields := by
  rw [@ServerOptions.readAll_iff validator]
  simp only [serverOptions?, Option.bind_eq_bind, Option.bind_eq_some_iff, Option.pure_def, Option.some.injEq]
  constructor
  · rintro ⟨_, hlevel, _, htransport, _, hhost, _, hport, rfl⟩
    exact ⟨hlevel, htransport, hhost, hport⟩
  · rintro ⟨hlevel, htransport, hhost, hport⟩
    exact ⟨_, hlevel, _, htransport, _, hhost, _, hport, rfl⟩

end

/-- A section that is read field by field is made as it is documented. -/
theorem constructs_sectionOf? {α : Type} {part : String} {names : List String} {read : RawFields → Option α}
    {schema : List Field} {values : α → List (String × Value)} (hnames : names = schema.map (·.name))
    (hread : ∀ raw o, read raw = some o ↔ Field.ReadAll raw schema (values o)) :
    @Validator.Constructs validator α (sectionOf? part names read) part schema values := by
  intro given env o
  have hall : given.all (names.contains ·.1) = true ↔ ∀ entry ∈ given, entry.1 ∈ schema.map (·.name) := by
    simp [hnames]
  rw [← hread, ← hall, sectionOf?]
  split
  · next h => exact ⟨fun ho => ⟨h, ho⟩, fun ho => ho.2⟩
  · next h => exact ⟨fun ho => (nomatch ho), fun ho => absurd ho.1 h⟩

/-! ### Settings -/

/-- Settings are made of the sections that are given, unless the variable of a whole section is wrong. -/
theorem settings_eq_ok {s s' : Settings} {env : Environment} (h : settings s env = .ok s') : s' = s := by
  obtain ⟨_, -, h⟩ := bind_eq_ok_iff.mp h
  exact (Except.ok.inj h).symm

theorem settings_of_find?_eq_none {s : Settings} {env : Environment}
    (h : ∀ part ∈ ["parser", "output", "server"], find? env ("JSON_TYPEGEN_" ++ part) = none) :
    settings s env = .ok s := by
  have hcheck : ∀ part ∈ ["parser", "output", "server"], checkSection env part = .ok () := by
    intro part hpart
    rw [checkSection, h part hpart]
    rfl
  simp only [List.forall_mem_cons] at hcheck
  obtain ⟨hparser, houtput, hserver, -⟩ := hcheck
  simp [settings, hparser, houtput, hserver, bind, Except.bind, pure, Except.pure]

/-- **The standard validator keeps to the documentation.** -/
theorem documented : @Validator.Documented validator :=
  let _ := validator
  { toBool?_bool _ := rfl
    toInt?_int _ := rfl
    toText?_str _ := rfl
    toOneOf?_str texts s := by
      show (some s).filter texts.contains = _
      simp [Option.filter]
    find?_eq_none_iff _ := find?_eq_none_iff
    has_of_find? _ := has_of_find?
    parser := constructs_sectionOf? rfl fun _ _ => parserOptions?_eq_some_iff
    output := constructs_sectionOf? rfl fun _ _ => outputOptions?_eq_some_iff
    server := constructs_sectionOf? rfl fun _ _ => serverOptions?_eq_some_iff
    settings_eq := settings_eq_ok
    settings_ok h := settings_of_find?_eq_none fun part hpart => by
      obtain ⟨s, hs, rfl⟩ : ∃ s ∈ Settings.sections, s.name = part := by
        simpa [Settings.sections, eq_comm] using hpart
      exact h s hs
    dump_eq _ := rfl }

end JsonShape.Standard
