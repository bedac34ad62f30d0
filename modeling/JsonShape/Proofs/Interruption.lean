import JsonShape.Pass

/-!
# Interrupted passes

What a signal does to a pass, compared with the run of the pass that nobody cancels. A pass is
interruptible if a signal that is set before one of the checks of that run stops it at just this check,
with the signal's reason, and a signal that is set later changes nothing. Passes that are composed of
interruptible ones are interruptible, since what comes before a check runs as if there were no signal.

The second half bounds the number of checks from below: `x.Makes n` says that `x` makes at least `n` of
them wherever it has a result.
-/

namespace JsonShape.Pass

variable {α β : Type}

/-- A signal that is set before a check of the uncancelled run stops the pass there, and one that is set
after the last check changes nothing. -/
structure Interruptible (x : Pass α) : Prop where
  /-- Checks are never taken back. -/
  checks_le : ∀ p, p.checks ≤ (x.run none p).2.checks
  /-- Set before a check that is still to be made, the signal stops the pass at this check. -/
  stopped : ∀ p i reason, p.checks ≤ i → i < (x.run none p).2.checks →
    (x.run (some (i, reason)) p).1 = .error (.cancelled reason) ∧
      (x.run (some (i, reason)) p).2.checks = i + 1
  /-- Set when all checks have been made, the signal changes nothing. -/
  unchanged : ∀ p i reason, (x.run none p).2.checks ≤ i →
    x.run (some (i, reason)) p = x.run none p

namespace Interruptible

/-- A pass that pays no heed to its signal and makes no check is interruptible. -/
theorem of_no_check {x : Pass α} (h : ∀ p, (x.run none p).2.checks = p.checks)
    (hs : ∀ signal p, x.run signal p = x.run none p) : x.Interruptible where
  checks_le p := Nat.le_of_eq (h p).symm
  stopped p i reason hi hlt := by
    rw [h p] at hlt
    omega
  unchanged p i reason _ := hs _ p

theorem pure (a : α) : (pure a : Pass α).Interruptible := of_no_check (fun _ => rfl) fun _ _ => rfl

theorem fail (e : Fault) : (Pass.fail e : Pass α).Interruptible :=
  of_no_check (fun _ => rfl) fun _ _ => rfl

theorem ofExcept (r : Except Fault α) : (Pass.ofExcept r).Interruptible := by
  cases r with
  | ok a => exact pure a
  | error e => exact fail e

theorem countObject : Pass.countObject.Interruptible := of_no_check (fun _ => rfl) fun _ _ => rfl

theorem check : Pass.check.Interruptible where
  checks_le p := Nat.le_succ p.checks
  stopped p i reason hi hlt := by
    have hlt : i < p.checks + 1 := hlt
    have hip : i = p.checks := by omega
    subst hip
    simp [Pass.check, run, Signal.reasonAt?]
  unchanged p i reason hle := by
    have hle : p.checks + 1 ≤ i := hle
    have hnot : ¬i ≤ p.checks := by omega
    simp [Pass.check, run, Signal.reasonAt?, hnot]

/-- One interruptible pass after another. -/
theorem bind {x : Pass α} {f : α → Pass β} (hx : x.Interruptible) (hf : ∀ a, (f a).Interruptible) :
    (x >>= f).Interruptible where
  checks_le p := by
    have hle := hx.checks_le p
    rw [run_bind]
    rcases hrun : x.run none p with ⟨r, p'⟩
    rw [hrun] at hle
    cases r with
    | ok a => exact Nat.le_trans hle ((hf a).checks_le p')
    | error e => exact hle
  stopped p i reason hi hlt := by
    have hstop := hx.stopped p i reason hi
    have hsame := hx.unchanged p i reason
    rw [run_bind] at hlt ⊢
    rcases hrun : x.run none p with ⟨r, p'⟩
    rw [hrun] at hlt hstop hsame
    by_cases hip : i < p'.checks
    · -- the check is one of the first pass
      obtain ⟨hr, hchecks⟩ := hstop hip
      rcases hcut : x.run (some (i, reason)) p with ⟨s, q⟩
      rw [hcut] at hr hchecks
      subst hr
      exact ⟨rfl, hchecks⟩
    · -- the first pass ends as it does without a signal
      have hip : p'.checks ≤ i := by omega
      rw [hsame hip]
      cases r with
      | ok a => exact (hf a).stopped p' i reason hip hlt
      | error e => exact absurd hlt (Nat.not_lt.mpr hip)
  unchanged p i reason hle := by
    have hsame := hx.unchanged p i reason
    rw [run_bind] at hle ⊢
    rw [run_bind]
    rcases hrun : x.run none p with ⟨r, p'⟩
    rw [hrun] at hle hsame
    cases r with
    | ok a =>
      have hfirst : p'.checks ≤ i := Nat.le_trans ((hf a).checks_le p') hle
      rw [hsame hfirst]
      exact (hf a).unchanged p' i reason hle
    | error e => rw [hsame hle]

/-- A checkpoint before an interruptible pass. -/
theorem after_check {x : Pass α} (hx : x.Interruptible) :
    (Pass.check >>= fun _ => x).Interruptible := check.bind fun _ => hx

/-- A function applied to the result of an interruptible pass. -/
theorem map {x : Pass α} (f : α → β) (hx : x.Interruptible) : (do return f (← x)).Interruptible :=
  hx.bind fun a => pure (f a)

end Interruptible

/-! ### How many checks are made -/

/-- The pass makes at least `n` checks if nobody cancels it and it has a result. -/
def Makes (n : Nat) (x : Pass α) : Prop :=
  ∀ p a, (x.run none p).1 = .ok a → p.checks + n ≤ (x.run none p).2.checks

theorem Interruptible.makes_zero {x : Pass α} (hx : x.Interruptible) : Makes 0 x :=
  fun p _ _ => hx.checks_le p

theorem makes_check : Makes 1 check := fun p _ _ => Nat.le_refl (p.checks + 1)

/-- A pass that fails has no result. -/
theorem makes_fail (n : Nat) (e : Fault) : Makes n (fail e : Pass α) := by
  intro p a h
  cases h

theorem Makes.mono {n m : Nat} {x : Pass α} (h : Makes m x) (hle : n ≤ m) : Makes n x := by
  intro p a ha
  have := h p a ha
  omega

/-- The checks of passes one after another add up. -/
theorem Makes.bind {n m : Nat} {x : Pass α} {f : α → Pass β} (hx : Makes n x)
    (hf : ∀ a, Makes m (f a)) : Makes (n + m) (x >>= f) := by
  intro p b hb
  have hfirst := hx p
  rw [run_bind] at hb ⊢
  rcases hrun : x.run none p with ⟨r, p'⟩
  rw [hrun] at hb hfirst
  cases r with
  | ok a =>
    have h₁ : p.checks + n ≤ p'.checks := hfirst a rfl
    have h₂ := hf a p' b hb
    simp only
    omega
  | error e => cases hb

/-- A function applied to a result makes no check. -/
theorem Makes.map {n : Nat} {x : Pass α} (f : α → β) (hx : Makes n x) : Makes n (do return f (← x)) :=
  hx.bind fun a => (Interruptible.pure (f a)).makes_zero

end JsonShape.Pass
