import JsonShape.Proofs.Correspondence

/-!
# Agreement

What two runs on related inputs have in common. `Matched` relates lists in which each member of either is
related to one of the other, whatever their order and however often members are repeated. `Agree` relates
two results that are both faults, or both values that are related.
-/

namespace JsonShape

variable {α β γ : Type}

/-- Each member of either list is related to one of the other. -/
structure Matched (R : α → β → Prop) (l : List α) (l' : List β) : Prop where
  left : ∀ a ∈ l, ∃ b ∈ l', R a b
  right : ∀ b ∈ l', ∃ a ∈ l, R a b

namespace Matched

variable {R : α → β → Prop} {l : List α} {l' : List β}

theorem symm {S : β → α → Prop} (h : Matched R l l') (hRS : ∀ a b, R a b → S b a) : Matched S l' l where
  left b hb := let ⟨a, ha, hR⟩ := h.right b hb; ⟨a, ha, hRS a b hR⟩
  right a ha := let ⟨b, hb, hR⟩ := h.left a ha; ⟨b, hb, hRS a b hR⟩

theorem imp {S : α → β → Prop} (h : Matched R l l') (hRS : ∀ a b, R a b → S a b) : Matched S l l' where
  left a ha := let ⟨b, hb, hR⟩ := h.left a ha; ⟨b, hb, hRS a b hR⟩
  right b hb := let ⟨a, ha, hR⟩ := h.right b hb; ⟨a, ha, hRS a b hR⟩

theorem trans {S : β → γ → Prop} {T : α → γ → Prop} {l'' : List γ} (h : Matched R l l')
    (h' : Matched S l' l'') (hT : ∀ a b c, R a b → S b c → T a c) : Matched T l l'' where
  left a ha :=
    let ⟨b, hb, hR⟩ := h.left a ha
    let ⟨c, hc, hS⟩ := h'.left b hb
    ⟨c, hc, hT a b c hR hS⟩
  right c hc :=
    let ⟨b, hb, hS⟩ := h'.right c hc
    let ⟨a, ha, hR⟩ := h.right b hb
    ⟨a, ha, hT a b c hR hS⟩

/-- Lists that correspond match. -/
theorem of_forall₂ (h : l.Forall₂ R l') : Matched R l l' where
  left _ ha := exists_right_of_forall₂ h ha
  right _ hb := exists_left_of_forall₂ h hb

/-- Lists of the same members match. -/
theorem of_mem_iff {R : α → α → Prop} {l l' : List α} (hR : ∀ a, R a a) (h : ∀ a, a ∈ l ↔ a ∈ l') :
    Matched R l l' where
  left a ha := ⟨a, (h a).mp ha, hR a⟩
  right a ha := ⟨a, (h a).mpr ha, hR a⟩

/-- A list matches its first member if all others are related to that one. -/
theorem singleton {R : α → α → Prop} {a : α} (ha : R a a) {l : List α} (h : ∀ b ∈ l, R b a) :
    Matched R (a :: l) [a] where
  left b hb := ⟨a, List.mem_singleton_self a, (List.mem_cons.mp hb).elim (fun hba => hba ▸ ha) (h b)⟩
  right b hb := ⟨a, List.mem_cons_self .., by rwa [List.mem_singleton.mp hb]⟩

/-- Lists match that differ in one member and a related one. -/
theorem of_replace {R : α → α → Prop} (hR : ∀ a, R a a) {a b : α} (hab : R a b) (pre post : List α) :
    Matched R (pre ++ a :: post) (pre ++ b :: post) := by
  have each : ∀ {S : α → α → Prop}, (∀ x, S x x) → ∀ {a b : α}, S a b → ∀ x ∈ pre ++ a :: post,
      ∃ y ∈ pre ++ b :: post, S x y := by
    intro S hS a b hab x hx
    rcases List.mem_append.mp hx with hx | hx
    · exact ⟨x, List.mem_append_left _ hx, hS x⟩
    · rcases List.mem_cons.mp hx with rfl | hx
      · exact ⟨b, List.mem_append_right _ (List.mem_cons_self ..), hab⟩
      · exact ⟨x, List.mem_append_right _ (List.mem_cons_of_mem _ hx), hS x⟩
  exact ⟨each hR hab, each (S := fun y x => R x y) hR hab⟩

theorem eq_nil_iff (h : Matched R l l') : l = [] ↔ l' = [] := by
  constructor
  · rintro rfl
    refine List.eq_nil_iff_forall_not_mem.mpr fun b hb => ?_
    obtain ⟨a, ha, -⟩ := h.right b hb
    cases ha
  · rintro rfl
    refine List.eq_nil_iff_forall_not_mem.mpr fun a ha => ?_
    obtain ⟨b, hb, -⟩ := h.left a ha
    cases hb

end Matched

/-! ### Results -/

variable {ε : Type}

/-- Both results are errors, or both are values that are related. -/
def Agree (R : α → β → Prop) : Except ε α → Except ε β → Prop
  | .ok a, .ok b => R a b
  | .error _, .error _ => True
  | .ok _, .error _ => False
  | .error _, .ok _ => False

namespace Agree

variable {R : α → β → Prop} {r : Except ε α} {r' : Except ε β}

/-- Results agree if there is one where there is the other, and they are then related. -/
theorem of_forall_ok (h : ∀ a, r = .ok a → ∃ b, r' = .ok b ∧ R a b)
    (h' : ∀ b, r' = .ok b → ∃ a, r = .ok a) : Agree R r r' := by
  cases r with
  | ok a =>
    obtain ⟨b, rfl, hR⟩ := h a rfl
    exact hR
  | error e =>
    cases r' with
    | ok b => obtain ⟨a, ha⟩ := h' b rfl; cases ha
    | error e' => trivial

theorem exists_right (h : Agree R r r') {a : α} (ha : r = .ok a) : ∃ b, r' = .ok b ∧ R a b := by
  subst ha
  cases r' with
  | ok b => exact ⟨b, rfl, h⟩
  | error e => exact h.elim

theorem exists_left (h : Agree R r r') {b : β} (hb : r' = .ok b) : ∃ a, r = .ok a ∧ R a b := by
  subst hb
  cases r with
  | ok a => exact ⟨a, rfl, h⟩
  | error e => exact h.elim

theorem refl {R : α → α → Prop} (hR : ∀ a, R a a) (r : Except ε α) : Agree R r r := by
  cases r with
  | ok a => exact hR a
  | error e => trivial

theorem trans {S : β → γ → Prop} {T : α → γ → Prop} {r'' : Except ε γ} (h : Agree R r r')
    (h' : Agree S r' r'') (hT : ∀ a b c, R a b → S b c → T a c) : Agree T r r'' := by
  refine of_forall_ok (fun a ha => ?_) fun c hc => ?_
  · obtain ⟨b, hb, hR⟩ := h.exists_right ha
    obtain ⟨c, hc, hS⟩ := h'.exists_right hb
    exact ⟨c, hc, hT a b c hR hS⟩
  · obtain ⟨b, hb, -⟩ := h'.exists_left hc
    obtain ⟨a, ha, -⟩ := h.exists_left hb
    exact ⟨a, ha⟩

/-- Results that agree are related in a further way, if they are where both are values. -/
theorem of_ok {S : α → β → Prop} (h : Agree R r r')
    (hS : ∀ a b, r = .ok a → r' = .ok b → R a b → S a b) : Agree S r r' := by
  refine of_forall_ok (fun a ha => ?_) fun b hb => ?_
  · obtain ⟨b, hb, hR⟩ := h.exists_right ha
    exact ⟨b, hb, hS a b ha hb hR⟩
  · obtain ⟨a, ha, -⟩ := h.exists_left hb
    exact ⟨a, ha⟩

/-- Functions of results that agree agree, if they map related results to related ones. -/
theorem map {δ : Type} {S : γ → δ → Prop} {f : α → γ} {g : β → δ} (h : Agree R r r')
    (hS : ∀ a b, r = .ok a → r' = .ok b → R a b → S (f a) (g b)) : Agree S (r.map f) (r'.map g) := by
  cases r <;> cases r'
  · trivial
  · exact h.elim
  · exact h.elim
  · exact hS _ _ rfl rfl h

/-- Lists of results of matching lists agree, where each member has one result, if it has one. -/
theorem of_matched {F : α → γ → Prop} {R : γ → γ → Prop} {l l' : List α} {r r' : Except ε (List γ)}
    (hF : ∀ a c c', F a c → F a c' → c = c') (hr : ∀ cs, r = .ok cs ↔ l.Forall₂ F cs)
    (hr' : ∀ cs, r' = .ok cs ↔ l'.Forall₂ F cs)
    (h : Matched (fun a b => (∀ c, F a c → ∃ d, F b d ∧ R c d) ∧ ∀ d, F b d → ∃ c, F a c ∧ R c d) l l') :
    Agree (Matched R) r r' := by
  refine of_forall_ok (fun cs hcs => ?_) fun ds hds => ?_
  · obtain ⟨ds, hds⟩ : ∃ ds, l'.Forall₂ F ds := exists_forall₂ fun b hb => by
      obtain ⟨a, ha, hab, -⟩ := h.right b hb
      obtain ⟨c, -, hc⟩ := exists_right_of_forall₂ ((hr cs).mp hcs) ha
      obtain ⟨d, hd, -⟩ := hab c hc
      exact ⟨d, hd⟩
    refine ⟨ds, (hr' ds).mpr hds, fun c hc => ?_, fun d hd => ?_⟩
    · obtain ⟨a, ha, hac⟩ := exists_left_of_forall₂ ((hr cs).mp hcs) hc
      obtain ⟨b, hb, hab, -⟩ := h.left a ha
      obtain ⟨d, hbd, hR⟩ := hab c hac
      obtain ⟨d', hd', hbd'⟩ := exists_right_of_forall₂ hds hb
      exact ⟨d', hd', hF b d d' hbd hbd' ▸ hR⟩
    · obtain ⟨b, hb, hbd⟩ := exists_left_of_forall₂ hds hd
      obtain ⟨a, ha, -, hba⟩ := h.right b hb
      obtain ⟨c, hac, hR⟩ := hba d hbd
      obtain ⟨c', hc', hac'⟩ := exists_right_of_forall₂ ((hr cs).mp hcs) ha
      exact ⟨c', hc', hF a c c' hac hac' ▸ hR⟩
  · have hcs : ∃ cs, l.Forall₂ F cs := exists_forall₂ fun a ha => by
      obtain ⟨b, hb, -, hba⟩ := h.left a ha
      obtain ⟨d, -, hd⟩ := exists_right_of_forall₂ ((hr' ds).mp hds) hb
      obtain ⟨c, hc, -⟩ := hba d hd
      exact ⟨c, hc⟩
    exact hcs.imp fun cs h => (hr cs).mpr h

end Agree
end JsonShape
