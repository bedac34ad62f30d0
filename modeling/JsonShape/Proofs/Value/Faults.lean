import JsonShape.Proofs.Inference.Acceptance
import JsonShape.Proofs.Value.Parts

/-!
# The faults of a value

What no decoder makes, wherever it is in a value: foreign values and keys that are no texts, in the order in
which a pass comes to them, a key before its value. Classification ends in the first of these faults and has
a shape if there is none; nothing that it does with the shapes found before hides a fault that comes after.
-/

namespace JsonShape

/-! ### Results that report faults -/

/-- The result is the first of some faults, and no fault if there are none. -/
def Reports {α : Type} (fs : List Fault) (r : Except Fault α) : Prop :=
  ∀ f, r = .error f ↔ fs.head? = some f

namespace Reports

variable {α β : Type} {fs gs : List Fault} {r : Except Fault α}

theorem ok (a : α) : Reports [] (.ok a : Except Fault α) := fun f => by simp

theorem error (f : Fault) (fs : List Fault) : Reports (f :: fs) (.error f : Except Fault α) :=
  fun g => by simp

theorem eq_nil_iff (h : Reports fs r) : fs = [] ↔ ∃ a, r = .ok a := by
  cases r with
  | ok a =>
    refine iff_of_true ?_ ⟨a, rfl⟩
    cases fs with
    | nil => rfl
    | cons f rest => exact nomatch (h f).mpr rfl
  | error f =>
    refine iff_of_false ?_ (fun ⟨_, ha⟩ => nomatch ha)
    rintro rfl
    exact nomatch (h f).mp rfl

/-- A computation after one that has a result reports what comes after. -/
theorem bind {k : α → Except Fault β} (h : Reports fs r) (hk : ∀ a, r = .ok a → Reports gs (k a)) :
    Reports (fs ++ gs) (r >>= k) := by
  cases r with
  | ok a =>
    rw [h.eq_nil_iff.mpr ⟨a, rfl⟩]
    exact hk a rfl
  | error f =>
    obtain ⟨rest, rfl⟩ := List.head?_eq_some_iff.mp ((h f).mp rfl)
    exact error f (rest ++ gs)

theorem map (h : Reports fs r) (g : α → β) : Reports fs (r.map g) := by
  cases r with
  | ok a =>
    rw [h.eq_nil_iff.mpr ⟨a, rfl⟩]
    exact ok (g a)
  | error f =>
    intro e
    rw [← h e]
    simp [Except.map]

end Reports

/-! ### Faults in order -/

/-- The fault is a value, a key or a shape of a kind that inference has no case for. -/
def Fault.isViolation : Fault → Bool
  | .unsupportedValue _ | .unsupportedKey _ | .unsupportedShape _ => true
  | .document _ | .cancelled _ | .emptyRootName | .noObjects | .noShapes => false

/-- What is wrong with a key. -/
def Key.fault? : Key → Option Fault
  | .text _ => none
  | .other kind => some (.unsupportedKey kind)

theorem Key.isViolation_of_fault? {key : Key} {f : Fault} (h : key.fault? = some f) :
    f.isViolation = true := by
  cases key with
  | text => cases h
  | other => cases h; rfl

namespace Value

mutual
/-- The faults in a value, at any depth, in order. -/
def faults : Value → List Fault
  | .arr items => faultsOfItems items
  | .obj members => faultsOfMembers members
  | .foreign kind => [.unsupportedValue kind.kind]
  | .null | .bool _ | .int _ | .float _ | .str _ => []
/-- The faults in the items of an array. -/
def faultsOfItems : List Value → List Fault
  | [] => []
  | v :: rest => v.faults ++ faultsOfItems rest
/-- The faults in the members of an object. -/
def faultsOfMembers : List (Key × Value) → List Fault
  | [] => []
  | (key, v) :: rest => key.fault?.toList ++ (v.faults ++ faultsOfMembers rest)
end

/-- No decoder makes the value: it is foreign, or has a key that is no text. -/
def isUndecodable : Value → Bool
  | .foreign _ => true
  | .obj members => members.any (·.1.fault?.isSome)
  | .null | .bool _ | .int _ | .float _ | .str _ | .arr _ => false

theorem faultsOfItems_eq_nil_iff {items : List Value} :
    faultsOfItems items = [] ↔ ∀ v ∈ items, v.faults = [] := by
  induction items with
  | nil => simp [faultsOfItems]
  | cons v rest ih => simp [faultsOfItems, ih]

theorem faultsOfMembers_eq_nil_iff {members : List (Key × Value)} :
    faultsOfMembers members = [] ↔ ∀ m ∈ members, m.1.fault? = none ∧ m.2.faults = [] := by
  induction members with
  | nil => simp [faultsOfMembers]
  | cons m rest ih => simp [faultsOfMembers, ih, and_assoc]

/-- There are faults in a value just if a part of it is made by no decoder. -/
theorem faults_eq_nil_iff {v : Value} : v.faults = [] ↔ ∀ w ∈ v.parts, w.isUndecodable = false := by
  induction v using Value.induction with
  | null | bool | int | float | str => simp [faults, parts, inside, isUndecodable]
  | foreign => simp [faults, parts, isUndecodable]
  | arr items ih =>
    simp only [faults, faultsOfItems_eq_nil_iff, parts, inside, List.forall_mem_cons, isUndecodable,
      true_and, mem_partsOfItems]
    constructor
    · rintro h w ⟨v, hv, hw⟩
      exact (ih v hv).mp (h v hv) w hw
    · exact fun h v hv => (ih v hv).mpr fun w hw => h w ⟨v, hv, hw⟩
  | obj members ih =>
    simp only [faults, faultsOfMembers_eq_nil_iff, parts, inside, List.forall_mem_cons, isUndecodable,
      List.any_eq_false, Option.isSome_iff_ne_none, ne_eq, not_not, mem_partsOfMembers]
    constructor
    · intro h
      refine ⟨fun m hm => (h m hm).1, ?_⟩
      rintro w ⟨m, hm, hw⟩
      exact (ih m hm).mp (h m hm).2 w hw
    · rintro ⟨hkeys, h⟩ m hm
      exact ⟨hkeys m hm, (ih m hm).mpr fun w hw => h w ⟨m, hm, hw⟩⟩

/-- What a decoder makes has no faults. -/
theorem Decoded.faults_eq_nil {v : Value} (h : v.Decoded) : v.faults = [] := by
  induction h with
  | null | bool | int | float | str => rfl
  | arr _ ih => exact faultsOfItems_eq_nil_iff.mpr ih
  | obj hkeys _ _ ih =>
    refine faultsOfMembers_eq_nil_iff.mpr fun m hm => ⟨?_, ih m hm⟩
    obtain ⟨key, hkey⟩ := hkeys m hm
    rw [hkey]
    rfl

theorem mem_faultsOfItems {items : List Value} {f : Fault} :
    f ∈ faultsOfItems items ↔ ∃ v ∈ items, f ∈ v.faults := by
  induction items with
  | nil => simp [faultsOfItems]
  | cons v rest ih => simp [faultsOfItems, ih]

theorem mem_faultsOfMembers {members : List (Key × Value)} {f : Fault} :
    f ∈ faultsOfMembers members ↔ ∃ m ∈ members, m.1.fault? = some f ∨ f ∈ m.2.faults := by
  induction members with
  | nil => simp [faultsOfMembers]
  | cons m rest ih => simp [faultsOfMembers, ih, or_assoc]

/-- The faults of a value are violations. -/
theorem isViolation_of_mem_faults {v : Value} {f : Fault} (h : f ∈ v.faults) : f.isViolation = true := by
  induction v using Value.induction with
  | null | bool | int | float | str => cases h
  | foreign =>
    cases List.mem_singleton.mp h
    rfl
  | arr items ih =>
    obtain ⟨v, hv, hf⟩ := mem_faultsOfItems.mp h
    exact ih v hv hf
  | obj members ih =>
    obtain ⟨m, hm, hkey | hf⟩ := mem_faultsOfMembers.mp h
    · exact Key.isViolation_of_fault? hkey
    · exact ih m hm hf

end Value

/-! ### Shapes and faults -/

mutual
/-- A value has a shape, or its first fault is the reason why not. -/
theorem reports_shape : ∀ (v : Value) (name : String) (depth : Nat),
    Reports v.faults (v.shape name depth)
  | .null, _, _ => .ok _
  | .bool _, _, _ => .ok _
  | .int _, _, _ => .ok _
  | .float _, _, _ => .ok _
  | .str _, _, _ => .ok _
  | .foreign _, _, _ => .error _ _
  | .arr items, name, depth => (reports_itemShapes items (elementName name) depth).map _
  | .obj members, name, depth => by
    rw [Value.shape]
    split
    · next he =>
      rw [List.isEmpty_iff.mp he]
      exact .ok _
    · exact (reports_memberShapes members (depth + 1)).map _
termination_by structural v => v
theorem reports_itemShapes : ∀ (items : List Value) (name : String) (depth : Nat),
    Reports (Value.faultsOfItems items) (itemShapes items name depth)
  | [], _, _ => .ok _
  | v :: rest, name, depth =>
    (reports_shape v name depth).bind fun t _ => (reports_itemShapes rest name depth).map (t :: ·)
termination_by structural items => items
theorem reports_memberShapes : ∀ (members : List (Key × Value)) (depth : Nat),
    Reports (Value.faultsOfMembers members) (memberShapes members depth)
  | [], _ => .ok _
  | (.other _, _) :: _, _ => .error _ _
  | (.text key, v) :: rest, depth =>
    (reports_shape v (deriveIdentifier key) depth).bind fun t _ =>
      (reports_memberShapes rest depth).map ((key, t) :: ·)
termination_by structural members => members
end

end JsonShape
