import JsonShape.Pass
import Mathlib.Data.List.Induction

/-!
# What a pass yields

A pass is a function of its signal and of the progress made before it. This module says when neither
plays a part: `x.Yields r` means that `x` ends in `r` from every progress, unless its signal is set and
stops it with its reason. A pass composed of passes that yield results yields the composition of the
results, so that everything about results can be said without a signal.
-/

namespace JsonShape.Pass

variable {α β : Type}

/-- The pass ends in `r` from every progress, unless its signal stops it. -/
def Yields (x : Pass α) (r : Except Fault α) : Prop :=
  ∀ signal p, (x.run signal p).1 = r ∨
    ∃ n reason, signal = some (n, reason) ∧ (x.run signal p).1 = .error (.cancelled reason)

/-- An uncancelled pass ends in what it yields. -/
theorem Yields.run_none {x : Pass α} {r : Except Fault α} (h : x.Yields r) (p : Progress) :
    (x.run none p).1 = r := by
  rcases h none p with h | ⟨_, _, hn, _⟩
  · exact h
  · cases hn

/-- A result is what the pass yields, whatever the signal. -/
theorem Yields.eq_ok {x : Pass α} {r : Except Fault α} {signal : Signal} {p : Progress} {a : α}
    (h : x.Yields r) (hr : (x.run signal p).1 = .ok a) : r = .ok a := by
  rcases h signal p with h | ⟨_, _, _, h⟩
  · rw [← h, hr]
  · rw [hr] at h; cases h

theorem yields_pure (a : α) : (pure a : Pass α).Yields (.ok a) := fun _ _ => .inl rfl

theorem yields_fail (e : Fault) : (fail e : Pass α).Yields (.error e) := fun _ _ => .inl rfl

theorem yields_ofExcept (r : Except Fault α) : (ofExcept r).Yields r := by
  cases r with
  | ok a => exact yields_pure a
  | error e => exact yields_fail e

theorem yields_countObject : countObject.Yields (.ok ()) := fun _ _ => .inl rfl

theorem yields_check : check.Yields (.ok ()) := by
  intro signal p
  cases signal with
  | none => exact .inl rfl
  | some s =>
    obtain ⟨n, reason⟩ := s
    by_cases h : n ≤ p.checks
    · exact .inr ⟨n, reason, rfl, by simp [check, run, Signal.reasonAt?, h]⟩
    · exact .inl (by simp [check, run, Signal.reasonAt?, h])

/-- One pass after another yields one result after the other. -/
theorem Yields.bind {x : Pass α} {f : α → Pass β} {r : Except Fault α} {g : α → Except Fault β}
    (hx : x.Yields r) (hf : ∀ a, r = .ok a → (f a).Yields (g a)) : (x >>= f).Yields (r >>= g) := by
  intro signal p
  rw [run_bind]
  rcases hrun : x.run signal p with ⟨s, p'⟩
  have hs := hx signal p
  rw [hrun] at hs
  rcases hs with rfl | ⟨n, reason, hn, rfl⟩
  · cases s with
    | ok a => exact hf a rfl signal p'
    | error e => exact .inl rfl
  · exact .inr ⟨n, reason, hn, rfl⟩

/-- A pass after one that has a result. -/
theorem Yields.bind_ok {x : Pass α} {f : α → Pass β} {a : α} {r : Except Fault β}
    (hx : x.Yields (.ok a)) (hf : (f a).Yields r) : (x >>= f).Yields r :=
  hx.bind (g := fun _ => r) fun b h => by cases h; exact hf

/-- A checkpoint changes nothing of what comes after it. -/
theorem Yields.after_check {x : Pass α} {r : Except Fault α} (hx : x.Yields r) :
    (check >>= fun _ => x).Yields r := yields_check.bind_ok hx

/-- A function applied to the result of a pass. -/
theorem Yields.map {x : Pass α} {r : Except Fault α} (f : α → β) (hx : x.Yields r) :
    (do return f (← x)).Yields (r.map f) := by
  have h := hx.bind (f := fun a => pure (f a)) (g := fun a => .ok (f a)) fun a _ => yields_pure (f a)
  cases r <;> exact h

/-- What each step keeps of a state and the list behind it holds at the end of a list. -/
theorem exists_yields_foldlM {I : β → List α → Prop} {step : β → α → Pass β} {l : List α}
    (hstep : ∀ s done a, I s done → (∀ x ∈ done ++ [a], x ∈ l) →
      ∃ s', (step s a).Yields (.ok s') ∧ I s' (done ++ [a])) {s : β} (hs : I s []) :
    ∃ s', (l.foldlM step s).Yields (.ok s') ∧ I s' l := by
  induction l using List.reverseRecOn with
  | nil => exact ⟨s, yields_pure s, hs⟩
  | append_singleton l a ih =>
    obtain ⟨s₁, h₁, hI₁⟩ := ih fun s done a hI hmem =>
      hstep s done a hI fun x hx => List.mem_append_left _ (hmem x hx)
    obtain ⟨s₂, h₂, hI₂⟩ := hstep s₁ l a hI₁ fun x hx => hx
    refine ⟨s₂, ?_, hI₂⟩
    rw [List.foldlM_append]
    exact h₁.bind_ok (h₂.bind_ok (yields_pure s₂))

end JsonShape.Pass
