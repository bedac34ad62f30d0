import Mathlib.Data.List.Forall2

/-!
# Lists that correspond

Members of lists that correspond element by element, the list that a partial function makes of another,
and when a composed computation has a result.
-/

namespace JsonShape

variable {α β : Type}

theorem exists_right_of_forall₂ {R : α → β → Prop} {l : List α} {l' : List β} (h : l.Forall₂ R l')
    {a : α} (ha : a ∈ l) : ∃ b ∈ l', R a b := by
  induction h with
  | nil => cases ha
  | @cons a' b _ _ hab _ ih =>
    rcases List.mem_cons.mp ha with rfl | ha
    · exact ⟨b, List.mem_cons_self .., hab⟩
    · obtain ⟨b', hb', hR⟩ := ih ha
      exact ⟨b', List.mem_cons_of_mem _ hb', hR⟩

theorem exists_left_of_forall₂ {R : α → β → Prop} {l : List α} {l' : List β} (h : l.Forall₂ R l')
    {b : β} (hb : b ∈ l') : ∃ a ∈ l, R a b := exists_right_of_forall₂ h.flip hb

/-- What corresponds are members of the lists. -/
theorem forall₂_mem {R : α → β → Prop} {l : List α} {l' : List β} (h : l.Forall₂ R l') :
    l.Forall₂ (fun a b => a ∈ l ∧ b ∈ l' ∧ R a b) l' := by
  have hleft := (List.forall₂_and_left l l').mpr ⟨fun _ ha => ha, h⟩
  have hright := (List.forall₂_and_left l' l).mpr ⟨fun _ hb => hb, hleft.flip⟩
  exact hright.flip.imp fun a b ⟨hb, ha, hR⟩ => ⟨ha, hb, hR⟩

/-- A list that corresponds to one that corresponds to another. -/
theorem forall₂_trans {γ : Type} {R : α → β → Prop} {S : β → γ → Prop} {T : α → γ → Prop} {l₁ : List α}
    {l₂ : List β} {l₃ : List γ} (h₁ : l₁.Forall₂ R l₂) (h₂ : l₂.Forall₂ S l₃)
    (h : ∀ a b c, R a b → S b c → T a c) : l₁.Forall₂ T l₃ := by
  induction h₁ generalizing l₃ with
  | nil => cases h₂; exact .nil
  | cons hR _ ih =>
    cases h₂ with
    | cons hS h₂ => exact .cons (h _ _ _ hR hS) (ih h₂)

/-- Lists that correspond to the same list are equal if the partners of each member are. -/
theorem eq_of_forall₂ {R S : α → β → Prop} {l : List α} {l₁ l₂ : List β} (h₁ : l.Forall₂ R l₁)
    (h₂ : l.Forall₂ S l₂) (h : ∀ a ∈ l, ∀ b c, R a b → S a c → b = c) : l₁ = l₂ := by
  induction h₁ generalizing l₂ with
  | nil => cases h₂; rfl
  | cons hR _ ih =>
    rw [List.forall_mem_cons] at h
    cases h₂ with
    | cons hS h₂ => rw [h.1 _ _ hR hS, ih h₂ h.2]

/-- Where each member has a partner, the list has a partner. -/
theorem exists_forall₂ {R : α → β → Prop} {l : List α} (h : ∀ a ∈ l, ∃ b, R a b) :
    ∃ l', l.Forall₂ R l' := by
  induction l with
  | nil => exact ⟨[], .nil⟩
  | cons a rest ih =>
    rw [List.forall_mem_cons] at h
    obtain ⟨b, hb⟩ := h.1
    obtain ⟨rest', hr⟩ := ih h.2
    exact ⟨b :: rest', .cons hb hr⟩

/-- A partial function maps a list to one that corresponds. -/
theorem mapM_eq_some_iff {f : α → Option β} {l : List α} {l' : List β} :
    l.mapM f = some l' ↔ l.Forall₂ (fun a b => f a = some b) l' := by
  induction l generalizing l' with
  | nil => simp [eq_comm]
  | cons a rest ih =>
    rw [List.mapM_cons]
    simp only [Option.pure_def, Option.bind_eq_bind, Option.bind_eq_some_iff, Option.some.injEq, ih]
    constructor
    · rintro ⟨b, hb, rest', hr, rfl⟩
      exact .cons hb hr
    · intro h
      cases h with
      | cons hb hr => exact ⟨_, hb, _, hr, rfl⟩

/-- A partial function that is defined on each member maps the list. -/
theorem exists_mapM_eq_some {f : α → Option β} {l : List α} (h : ∀ a ∈ l, ∃ b, f a = some b) :
    ∃ l', l.mapM f = some l' :=
  let ⟨l', hl'⟩ := exists_forall₂ h
  ⟨l', mapM_eq_some_iff.mpr hl'⟩

/-! ### Results -/

variable {ε : Type}

theorem bind_eq_ok_iff {x : Except ε α} {f : α → Except ε β} {b : β} :
    x >>= f = .ok b ↔ ∃ a, x = .ok a ∧ f a = .ok b := by
  cases x <;> simp [bind, Except.bind]

theorem map_eq_ok_iff {x : Except ε α} {f : α → β} {b : β} :
    x.map f = .ok b ↔ ∃ a, x = .ok a ∧ f a = b := by
  cases x <;> simp [Except.map]

end JsonShape
