import JsonShape.Runner
import Mathlib.Data.List.Nodup

/-!
# Who holds a runner's token

Whatever happens to a runner, the token that it holds is that of the last pass started, which is still in
flight for its caller, and every other pass in flight is cancelled. A step that starts no pass leaves the
other passes as they are, but for those that it may cancel.
-/

namespace JsonShape

namespace Flight

theorem signal_cancel_ne_none (f : Flight) (reason : String) : (f.cancel reason).signal ≠ none := by
  unfold cancel Signal.cancel
  cases f.signal <;> simp

/-- The change concerns the worker of a pass only: its token, its signal and its caller stay. -/
structure IsProgress (g : Flight → Flight) : Prop where
  token_eq : ∀ f, (g f).token = f.token
  signal_eq : ∀ f, (g f).signal = f.signal
  abandoned_eq : ∀ f, (g f).abandoned = f.abandoned

theorem isProgress_work [Json5Decoder] : IsProgress work := ⟨fun _ => rfl, fun _ => rfl, fun _ => rfl⟩

theorem isProgress_drain [Json5Decoder] : IsProgress drain := ⟨fun _ => rfl, fun _ => rfl, fun _ => rfl⟩

/-- Progress of one pass among others. -/
theorem IsProgress.ite {g : Flight → Flight} (hg : IsProgress g) (token : Nat) :
    IsProgress fun x => if x.token = token then g x else x := by
  constructor <;> intro x <;> split
  · exact hg.token_eq x
  · rfl
  · exact hg.signal_eq x
  · rfl
  · exact hg.abandoned_eq x
  · rfl

end Flight

namespace Runner

variable {r r' : Runner} {token : Nat}

/-! ### Owned runners -/

/-- The runner holds the token of its last pass, or none, and all other passes in flight are cancelled. -/
structure Owned (r : Runner) : Prop where
  /-- Passes in flight have different tokens. -/
  tokens_nodup : (r.flights.map (·.token)).Nodup
  /-- Their tokens are those of passes that have been started. -/
  token_lt : ∀ f ∈ r.flights, f.token < r.started
  /-- The token held is that of the last pass started. -/
  current_last : ∀ {token}, r.current = some token → token + 1 = r.started
  /-- The pass whose token is held is in flight, is not cancelled, and its caller is there. -/
  exists_current : ∀ {token}, r.current = some token →
    ∃ f ∈ r.flights, f.token = token ∧ f.signal = none ∧ f.abandoned = false
  /-- A pass that is not cancelled has the token held. -/
  current_eq : ∀ f ∈ r.flights, f.signal = none → r.current = some f.token

/-- A runner after a step that starts no pass, and that cancels no passes but those of some tokens. -/
structure Follows (r' r : Runner) (cancels : Nat → Prop) : Prop where
  started_eq : r'.started = r.started
  /-- The step gives the runner no token. -/
  running : r'.running = true → r.running = true
  /-- What is in flight after the step was so before. -/
  flight : ∀ f' ∈ r'.flights, ∃ f ∈ r.flights, f.token = f'.token ∧ (f'.signal = f.signal ∨ cancels f.token)

/-- Where there was a request in flight, there is one after the step. -/
def KeepsRequest (r' r : Runner) : Prop :=
  (∃ f ∈ r.flights, f.abandoned = false) → ∃ f ∈ r'.flights, f.abandoned = false

theorem owned_empty : ({} : Runner).Owned where
  tokens_nodup := List.nodup_nil
  token_lt _ h := nomatch h
  current_last h := nomatch h
  exists_current h := nomatch h
  current_eq _ h := nomatch h

theorem follows_refl (r : Runner) (cancels : Nat → Prop) : r.Follows r cancels :=
  ⟨rfl, id, fun f hf => ⟨f, hf, rfl, .inl rfl⟩⟩

/-- Passes of one token are one pass. -/
theorem Owned.eq_of_token (h : r.Owned) {f g : Flight} (hf : f ∈ r.flights) (hg : g ∈ r.flights)
    (hfg : f.token = g.token) : f = g := List.inj_on_of_nodup_map h.tokens_nodup hf hg hfg

theorem running_iff : r.running = true ↔ ∃ token, r.current = some token := Option.isSome_iff_exists

/-! ### Changing the pass of a token -/

section Update

variable {g : Flight → Flight}

theorem mem_update {f : Flight} : f ∈ (r.update token g).flights ↔
    ∃ x ∈ r.flights, (if x.token = token then g x else x) = f := List.mem_map

theorem map_token_update (hg : ∀ f, (g f).token = f.token) :
    (r.update token g).flights.map (·.token) = r.flights.map (·.token) := by
  rw [update, List.map_map]
  refine List.map_congr_left fun x _ => ?_
  simp only [Function.comp_apply]
  split
  · exact hg x
  · rfl

end Update

/-- Ownership after a step that starts no pass: that tokens stay different is the same for all such steps. -/
theorem Owned.step (h : r.Owned) (hstarted : r'.started = r.started)
    (htokens : (r'.flights.map (·.token)).Sublist (r.flights.map (·.token)))
    (hcurrent : ∀ {token}, r'.current = some token → r.current = some token ∧
      ∃ f ∈ r'.flights, f.token = token ∧ f.signal = none ∧ f.abandoned = false)
    (hlive : ∀ f ∈ r'.flights, f.signal = none → r'.current = some f.token) : r'.Owned where
  tokens_nodup := h.tokens_nodup.sublist htokens
  token_lt f hf := by
    have hmem : f.token ∈ r.flights.map (·.token) := htokens.subset (List.mem_map_of_mem hf)
    obtain ⟨x, hx, hxf⟩ := List.mem_map.mp hmem
    rw [hstarted, ← hxf]
    exact h.token_lt x hx
  current_last ht := hstarted ▸ h.current_last (hcurrent ht).1
  exists_current ht := (hcurrent ht).2
  current_eq := hlive

/-! ### Progress of workers -/

section Progress

variable {g : Flight → Flight} (hg : Flight.IsProgress g)
include hg

/-- Progress of a worker leaves ownership as it is. -/
theorem Owned.progress (h : r.Owned) (token : Nat) : (r.update token g).Owned := by
  have htokens : (r.update token g).flights.map (·.token) = r.flights.map (·.token) :=
    map_token_update hg.token_eq
  have hsame := hg.ite token
  refine h.step rfl (htokens ▸ List.Sublist.refl _) (fun ht => ⟨ht, ?_⟩) ?_
  · obtain ⟨x, hx, hxt, hxs, hxa⟩ := h.exists_current ht
    exact ⟨_, mem_update.mpr ⟨x, hx, rfl⟩, (hsame.token_eq x).trans hxt,
      (hsame.signal_eq x).trans hxs, (hsame.abandoned_eq x).trans hxa⟩
  · intro f hf hfs
    obtain ⟨x, hx, rfl⟩ := mem_update.mp hf
    rw [hsame.token_eq x]
    exact h.current_eq x hx ((hsame.signal_eq x).symm.trans hfs)

theorem follows_progress (r : Runner) (token : Nat) (cancels : Nat → Prop) :
    (r.update token g).Follows r cancels := by
  refine ⟨rfl, id, fun f hf => ?_⟩
  obtain ⟨x, hx, rfl⟩ := mem_update.mp hf
  exact ⟨x, hx, ((hg.ite token).token_eq x).symm, .inl ((hg.ite token).signal_eq x)⟩

theorem keepsRequest_progress (r : Runner) (token : Nat) : (r.update token g).KeepsRequest r := by
  rintro ⟨x, hx, hxa⟩
  exact ⟨_, mem_update.mpr ⟨x, hx, rfl⟩, ((hg.ite token).abandoned_eq x).trans hxa⟩

end Progress

/-! ### Cancelling -/

/-- After cancelling, no token is held. -/
theorem current_cancel (r : Runner) (reason : String) : (r.cancel reason).2.current = none := by
  unfold cancel
  cases h : r.current <;> simp [h]

/-- Cancelling succeeds if a token is held. -/
theorem cancel_eq_true_iff {reason : String} : (r.cancel reason).1 = true ↔ r.running = true := by
  unfold cancel running
  cases r.current <;> simp

theorem Owned.cancel (h : r.Owned) (reason : String) : (r.cancel reason).2.Owned := by
  unfold Runner.cancel
  cases hc : r.current with
  | none => exact h
  | some token =>
    have htokens : (r.update token (·.cancel reason)).flights.map (·.token) = r.flights.map (·.token) :=
      map_token_update fun _ => rfl
    refine h.step rfl (htokens ▸ List.Sublist.refl _) (nomatch ·) ?_
    intro f hf hfs
    obtain ⟨x, hx, rfl⟩ := mem_update.mp hf
    split at hfs
    · exact absurd hfs (x.signal_cancel_ne_none reason)
    · next hne =>
      -- only the pass whose token was held was not cancelled before
      have hcurrent := h.current_eq x hx hfs
      rw [hc, Option.some.injEq] at hcurrent
      exact absurd hcurrent.symm hne

theorem follows_cancel (r : Runner) (reason : String) : (r.cancel reason).2.Follows r fun _ => True := by
  unfold Runner.cancel
  cases r.current with
  | none => exact follows_refl r _
  | some token =>
    refine ⟨rfl, (nomatch ·), fun f hf => ?_⟩
    obtain ⟨x, hx, rfl⟩ := mem_update.mp hf
    refine ⟨x, hx, ?_, .inr trivial⟩
    split <;> rfl

theorem keepsRequest_cancel (r : Runner) (reason : String) : (r.cancel reason).2.KeepsRequest r := by
  unfold Runner.cancel
  cases r.current with
  | none => exact id
  | some token =>
    rintro ⟨x, hx, hxa⟩
    refine ⟨_, mem_update.mpr ⟨x, hx, rfl⟩, ?_⟩
    split
    · exact hxa
    · exact hxa

/-! ### Starting -/

theorem mem_start {request : Request} {f : Flight} : f ∈ (r.start request).flights ↔
    f ∈ (r.cancel superseded).2.flights ∨ f = { token := r.started, request } := by
  have hstarted := (follows_cancel r superseded).started_eq
  simp [start, hstarted]

theorem started_start (r : Runner) (request : Request) : (r.start request).started = r.started + 1 :=
  congrArg (· + 1) (follows_cancel r superseded).started_eq

/-- A pass that is in flight after a start was so before, or is the one that was started. -/
theorem exists_or_of_mem_start {request : Request} {f' : Flight} (h : f' ∈ (r.start request).flights) :
    (∃ f ∈ r.flights, f.token = f'.token) ∨ f' = { token := r.started, request } := by
  refine (mem_start.mp h).imp_left fun h => ?_
  obtain ⟨f, hf, hff', -⟩ := (follows_cancel r superseded).flight f' h
  exact ⟨f, hf, hff'⟩

/-- The pass that is started has the token that is held, and no other is left uncancelled. -/
theorem Owned.start (h : r.Owned) (request : Request) : (r.start request).Owned := by
  have hc := h.cancel superseded
  have hnone := current_cancel r superseded
  refine {
    tokens_nodup := ?tokens_nodup
    token_lt := ?token_lt
    current_last := ?current_last
    exists_current := ?exists_current
    current_eq := ?current_eq }
  case tokens_nodup =>
    rw [Runner.start, List.map_append]
    refine List.nodup_append.mpr ⟨hc.tokens_nodup, List.nodup_singleton _, ?_⟩
    rintro t ht u hu rfl
    obtain ⟨f, hf, rfl⟩ := List.mem_map.mp ht
    have hlt := hc.token_lt f hf
    simp only [List.map_cons, List.map_nil, List.mem_singleton] at hu
    omega
  case token_lt =>
    intro f hf
    have hstarted : (r.start request).started = (r.cancel superseded).2.started + 1 := rfl
    rw [hstarted]
    rcases List.mem_append.mp hf with hf | hf
    · have := hc.token_lt f hf
      omega
    · rw [List.mem_singleton.mp hf]
      exact Nat.lt_succ_self _
  case current_last =>
    intro t ht
    cases ht
    rfl
  case exists_current =>
    intro t ht
    cases ht
    exact ⟨_, List.mem_append_right _ (List.mem_singleton_self _), rfl, rfl, rfl⟩
  case current_eq =>
    intro f hf hfs
    rcases List.mem_append.mp hf with hf | hf
    · have := hc.current_eq f hf hfs
      rw [hnone] at this
      cases this
    · rw [List.mem_singleton.mp hf]
      rfl

/-! ### Ending -/

theorem mem_land {f : Flight} : f ∈ (r.land token).flights ↔ f ∈ r.flights ∧ f.token ≠ token := by
  simp [land]

theorem current_release_eq_some_iff {t : Nat} :
    (r.release token).current = some t ↔ r.current = some t ∧ t ≠ token := by
  unfold release
  split
  · next h => simp [h, eq_comm]
  · next h =>
    refine ⟨fun ht => ⟨ht, ?_⟩, And.left⟩
    rintro rfl
    exact h ht

@[simp] theorem flights_release : (r.release token).flights = r.flights := by
  unfold release
  split <;> rfl

@[simp] theorem started_release : (r.release token).started = r.started := by
  unfold release
  split <;> rfl

/-- Ownership when a pass has been removed, and its token released if it is held. -/
theorem Owned.land_release (h : r.Owned) (token : Nat) : ((r.land token).release token).Owned := by
  refine h.step (by rw [started_release]; rfl) ?_ ?_ ?_
  · rw [flights_release]
    exact List.filter_sublist.map _
  · intro t ht
    obtain ⟨ht, hne⟩ := current_release_eq_some_iff.mp ht
    obtain ⟨f, hf, hft, hfs, hfa⟩ := h.exists_current ht
    refine ⟨ht, f, ?_, hft, hfs, hfa⟩
    rw [flights_release]
    exact mem_land.mpr ⟨hf, hft ▸ hne⟩
  · intro f hf hfs
    rw [flights_release] at hf
    obtain ⟨hf, hne⟩ := mem_land.mp hf
    exact current_release_eq_some_iff.mpr ⟨h.current_eq f hf hfs, hne⟩

theorem follows_land_release (r : Runner) (token : Nat) (cancels : Nat → Prop) :
    ((r.land token).release token).Follows r cancels := by
  refine ⟨by rw [started_release]; rfl, fun hr => ?_, fun f hf => ?_⟩
  · obtain ⟨t, ht⟩ := running_iff.mp hr
    exact running_iff.mpr ⟨t, (current_release_eq_some_iff.mp ht).1⟩
  · rw [flights_release] at hf
    exact ⟨f, (mem_land.mp hf).1, rfl, .inl rfl⟩

theorem mem_of_flight? {f : Flight} (h : r.flight? token = some f) : f ∈ r.flights ∧ f.token = token :=
  ⟨List.mem_of_find?_eq_some h, by simpa using List.find?_some h⟩

/-- A pass is resumed when its worker has ended, if its caller is there. -/
theorem resume_eq_some_iff [Json5Decoder] {result : Except Fault Outcome} :
    r.resume token = (some result, r') ↔ ∃ f, r.flight? token = some f ∧ f.ended = true ∧
      f.abandoned = false ∧ f.result = result ∧ (r.land token).release token = r' := by
  unfold resume
  cases r.flight? token with
  | none => simp
  | some f =>
    simp only [Option.some.injEq, exists_eq_left']
    split
    · next h => simp_all
    · next h =>
      refine iff_of_false (fun h => nomatch h) fun ⟨he, ha, _⟩ => h ?_
      rw [he, ha]
      rfl

theorem Owned.abort (h : r.Owned) (token : Nat) : (r.abort token).Owned := by
  unfold Runner.abort
  generalize hg : (fun f : Flight => { f.cancel callerGone with abandoned := true }) = g
  have htokens : (r.update token g).flights.map (·.token) = r.flights.map (·.token) :=
    map_token_update fun f => by rw [← hg]; rfl
  refine h.step (by rw [started_release]; rfl) ?_ ?_ ?_
  · rw [flights_release, htokens]
  · intro t ht
    obtain ⟨ht, hne⟩ := current_release_eq_some_iff.mp ht
    obtain ⟨f, hf, hft, hfs, hfa⟩ := h.exists_current ht
    refine ⟨ht, f, ?_, hft, hfs, hfa⟩
    rw [flights_release]
    exact mem_update.mpr ⟨f, hf, if_neg (hft ▸ hne)⟩
  · intro f hf hfs
    rw [flights_release] at hf
    obtain ⟨x, hx, rfl⟩ := mem_update.mp hf
    split at hfs
    · rw [← hg] at hfs
      exact absurd hfs (x.signal_cancel_ne_none callerGone)
    · next hne =>
      rw [if_neg hne]
      exact current_release_eq_some_iff.mpr ⟨h.current_eq x hx hfs, hne⟩

theorem follows_abort (r : Runner) (token : Nat) : (r.abort token).Follows r (· = token) := by
  refine ⟨by rw [abort, started_release]; rfl, fun hr => ?_, fun f hf => ?_⟩
  · obtain ⟨t, ht⟩ := running_iff.mp hr
    exact running_iff.mpr ⟨t, (current_release_eq_some_iff.mp ht).1⟩
  · rw [abort, flights_release] at hf
    obtain ⟨x, hx, rfl⟩ := mem_update.mp hf
    refine ⟨x, hx, ?_⟩
    split
    · next h => exact ⟨rfl, .inr h⟩
    · exact ⟨rfl, .inl rfl⟩

/-- Reaping drops a pass without a caller, or nothing. -/
theorem reap_cases [Json5Decoder] (r : Runner) (token : Nat) : r.reap token = r ∨
    r.reap token = r.land token ∧ ∃ f ∈ r.flights, f.token = token ∧ f.abandoned = true := by
  unfold reap
  cases hf : r.flight? token with
  | none => exact .inl rfl
  | some f =>
    simp only
    split
    · next h =>
      obtain ⟨hmem, htoken⟩ := mem_of_flight? hf
      exact .inr ⟨rfl, f, hmem, htoken, (Bool.and_eq_true_iff.mp h).2⟩
    · exact .inl rfl

/-- The token of a pass without a caller is not held. -/
theorem Owned.release_of_abandoned (h : r.Owned) {f : Flight} (hf : f ∈ r.flights)
    (ha : f.abandoned = true) : (r.land f.token).release f.token = r.land f.token := by
  refine if_neg fun hc => ?_
  obtain ⟨x, hx, hxf, -, hxa⟩ := h.exists_current (show r.current = some f.token from hc)
  rw [h.eq_of_token hx hf hxf, ha] at hxa
  cases hxa

theorem Owned.reap [Json5Decoder] (h : r.Owned) (token : Nat) : (r.reap token).Owned := by
  rcases r.reap_cases token with hr | ⟨hr, f, hf, rfl, ha⟩
  · rwa [hr]
  · rw [hr, ← h.release_of_abandoned hf ha]
    exact h.land_release f.token

theorem follows_reap [Json5Decoder] (h : r.Owned) (token : Nat) (cancels : Nat → Prop) :
    (r.reap token).Follows r cancels := by
  rcases r.reap_cases token with hr | ⟨hr, f, hf, rfl, ha⟩
  · rw [hr]
    exact follows_refl r cancels
  · rw [hr, ← h.release_of_abandoned hf ha]
    exact follows_land_release r f.token cancels

theorem keepsRequest_reap [Json5Decoder] (h : r.Owned) (token : Nat) : (r.reap token).KeepsRequest r := by
  rcases r.reap_cases token with hr | ⟨hr, f, hf, rfl, ha⟩
  · rw [hr]
    exact id
  · rw [hr]
    rintro ⟨x, hx, hxa⟩
    refine ⟨x, mem_land.mpr ⟨hx, fun hxf => ?_⟩, hxa⟩
    rw [h.eq_of_token hx hf hxf, ha] at hxa
    cases hxa

end Runner
end JsonShape
