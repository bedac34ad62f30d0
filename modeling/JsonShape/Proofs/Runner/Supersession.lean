import JsonShape.Document.Lenient
import JsonShape.Proofs.Inference.Cancellation
import JsonShape.Proofs.Runner.History

/-!
# Superseded passes

What a pass returns when a newer one is started before it has returned. A signal that is set is never set
anew while its caller is there, so what the worker will hand over is settled when the newer pass starts:
a pass with a check ahead ends there, cancelled. A worker that has made its last check does not look at the
signal any more, and its pass returns what it would have returned without the newer one.
-/

namespace JsonShape

namespace Flight

variable {f : Flight}

/-- The check before which the signal of a pass is set, or would be if it were set now. -/
def stop (f : Flight) : Nat := (f.signal.map (·.1)).getD f.made

/-- The worker looks at the signal again after it is set, or would if it were set now. -/
def HasCheckAhead [Json5Decoder] (f : Flight) : Prop := f.stop < (f.request.run none).2.checks

/-- A pass that is cancelled with a check ahead hands over that it is cancelled. -/
theorem result_of_hasCheckAhead [Json5Decoder] {n : Nat} {reason : String} (hsignal : f.signal = some (n, reason))
    (h : f.HasCheckAhead) : f.result = .ok (.cancelled reason) := by
  have hn : n < (f.request.run none).2.checks := by simpa [HasCheckAhead, stop, hsignal] using h
  obtain ⟨hresult, -⟩ := (inferTree_interruptible f.request).stopped {} n reason (Nat.zero_le n) hn
  show Outcome.ofResult ((inferTree f.request).run f.signal {}).1 = _
  rw [hsignal, hresult]
  rfl

/-- A pass that is cancelled with no check ahead hands over what it would if nobody had cancelled it. -/
theorem result_of_not_hasCheckAhead [Json5Decoder] {n : Nat} {reason : String} (hsignal : f.signal = some (n, reason))
    (h : ¬f.HasCheckAhead) : f.result = (f.request.run none).1 := by
  have hn : (f.request.run none).2.checks ≤ n := by simpa [HasCheckAhead, stop, hsignal] using h
  show Outcome.ofResult ((inferTree f.request).run f.signal {}).1 = _
  rw [hsignal, (inferTree_interruptible f.request).unchanged {} n reason hn]
  rfl

end Flight

namespace Runner

variable {r r' : Runner} {f : Flight}

/-! ### What becomes of a pass -/

/-- What a pass returns is what its worker hands over, now or when it has come to its end. -/
theorem Owned.result_eq [Json5Decoder] (h : r.Owned) (hf : f ∈ r.flights) (ha : f.abandoned = false) :
    (r.finish f.token).1 = some f.result ∧
      ∀ result r', r.resume f.token = (some result, r') → result = f.result := by
  constructor
  · have hdrained : f.drain ∈ (r.drain f.token).flights := mem_update.mpr ⟨f, hf, if_pos rfl⟩
    have hflight := (h.progress Flight.isProgress_drain f.token).flight?_token hdrained
    have hended : f.drain.ended = true := decide_eq_true (Nat.le_refl f.total)
    have hresume : (r.drain f.token).resume f.token =
        (some f.drain.result, ((r.drain f.token).land f.token).release f.token) :=
      resume_eq_some_iff.mpr ⟨f.drain, hflight, hended, ha, rfl, rfl⟩
    rw [finish, hresume]
    rfl
  · intro result r' hr
    obtain ⟨x, hx, -, -, rfl, -⟩ := resume_eq_some_iff.mp hr
    rw [h.flight?_token hf, Option.some.injEq] at hx
    rw [hx]

/-- Cancelling does not touch a pass that is cancelled already. -/
theorem Owned.mem_cancel (h : r.Owned) (hf : f ∈ r.flights) (hcut : f.signal ≠ none) (reason : String) :
    f ∈ (r.cancel reason).2.flights := by
  unfold Runner.cancel
  cases hc : r.current with
  | none => exact hf
  | some t =>
    refine mem_update.mpr ⟨f, hf, if_neg ?_⟩
    rintro rfl
    obtain ⟨x, hx, hxf, hlive, -⟩ := h.exists_current hc
    rw [h.eq_of_token hx hf hxf] at hlive
    exact hcut hlive

/-- The start of a newer pass cancels the pass whose token is held, and no other. -/
theorem Owned.exists_cancelled (h : r.Owned) (hf : f ∈ r.flights) (request : Request) :
    ∃ reason, { f with signal := some (f.stop, reason) } ∈ (r.start request).flights ∧
      (f.signal = none → reason = superseded) := by
  cases hs : f.signal with
  | none =>
    refine ⟨superseded, mem_start.mpr (.inl ?_), fun _ => rfl⟩
    have hcurrent := h.current_eq f hf hs
    unfold Runner.cancel
    rw [hcurrent]
    refine mem_update.mpr ⟨f, hf, ?_⟩
    rw [if_pos rfl]
    have hgiven : Signal.cancel none f.made (some superseded) = some (f.made, superseded) := rfl
    simp [Flight.cancel, Flight.stop, hs, hgiven]
  | some s =>
    obtain ⟨n, reason⟩ := s
    refine ⟨reason, mem_start.mpr (.inl ?_), (nomatch ·)⟩
    have hstop : f.stop = n := by simp [Flight.stop, hs]
    rw [hstop, ← hs]
    exact h.mem_cancel hf (by simp [hs]) superseded

/-- A pass that is cancelled stays as it is until it returns or its caller goes away, but for the checks that
its worker makes. -/
theorem Step.exists_mem [Json5Decoder] {e : Happening} (hstep : Step r e r') (h : r.Owned) (hf : f ∈ r.flights)
    (ha : f.abandoned = false) (hcut : f.signal ≠ none) (hresume : e ≠ .resume f.token)
    (habort : e ≠ .abort f.token) : ∃ made, { f with made } ∈ r'.flights := by
  -- what changes another pass keeps this one
  have keeps {u : Nat} {g : Flight → Flight} (hne : f.token ≠ u) : f ∈ (r.update u g).flights :=
    mem_update.mpr ⟨f, hf, if_neg hne⟩
  cases hstep with
  | start request => exact ⟨f.made, mem_start.mpr (.inl (h.mem_cancel hf hcut superseded))⟩
  | @work x hx =>
    by_cases hxf : f.token = x.token
    · exact ⟨_, mem_update.mpr ⟨f, hf, if_pos hxf⟩⟩
    · exact ⟨f.made, keeps hxf⟩
  | @drain x hx =>
    by_cases hxf : f.token = x.token
    · exact ⟨_, mem_update.mpr ⟨f, hf, if_pos hxf⟩⟩
    · exact ⟨f.made, keeps hxf⟩
  | resume hr =>
    obtain ⟨x, hx, -, -, -, rfl⟩ := resume_eq_some_iff.mp hr
    obtain ⟨-, rfl⟩ := mem_of_flight? hx
    refine ⟨f.made, ?_⟩
    rw [flights_release, mem_land]
    exact ⟨hf, fun hxf => hresume (hxf ▸ rfl)⟩
  | @abort x hx _ =>
    refine ⟨f.made, ?_⟩
    rw [Runner.abort, flights_release]
    exact keeps fun hxf => habort (hxf ▸ rfl)
  | cancel reason => exact ⟨f.made, h.mem_cancel hf hcut reason⟩
  | @reap x hx he hxa =>
    refine ⟨f.made, ?_⟩
    rw [h.reap_eq hx he hxa, mem_land]
    refine ⟨hf, fun hxf => ?_⟩
    rw [h.eq_of_token hf hx hxf, hxa] at ha
    cases ha

theorem History.exists_mem [Json5Decoder] {es : List Happening} (hist : History r es r') (h : r.Owned)
    (hf : f ∈ r.flights) (ha : f.abandoned = false) (hcut : f.signal ≠ none) (hresume : .resume f.token ∉ es)
    (habort : .abort f.token ∉ es) : ∃ made, { f with made } ∈ r'.flights := by
  induction hist with
  | nil => exact ⟨f.made, hf⟩
  | snoc hist hstep ih =>
    rw [List.mem_append, List.mem_singleton, not_or] at hresume habort
    obtain ⟨made, hmade⟩ := ih hresume.1 habort.1
    exact hstep.exists_mem (hist.owned h) (f := { f with made }) hmade ha hcut (Ne.symm hresume.2)
      (Ne.symm habort.2)

/-! ### What a superseded pass returns -/

/-- **A pass that is superseded with a check ahead is cancelled.** When a newer pass is started before an older
one has returned, whatever has happened before and whatever happens then, the older pass stays in flight until
it returns or its caller goes away, and it can always be brought to its end. If it was cancelled before, or is
superseded, with a check ahead, what it returns is that it is cancelled, without a tree. If its worker has made
its last check by then, it returns what it would have returned if no pass had been started. -/
theorem superseded_of_hasCheckAhead [Json5Decoder] {es es' : List Happening} {request : Request}
    (hist : History {} es r) (hf : f ∈ r.flights) (ha : f.abandoned = false) (later : History (r.start request) es' r')
    (hresume : .resume f.token ∉ es') (habort : .abort f.token ∉ es') :
    ∃ result, (r'.finish f.token).1 = some result ∧
      (∀ result' r'', r'.resume f.token = (some result', r'') → result' = result) ∧
      (f.HasCheckAhead → ∃ reason, result = .ok (.cancelled reason) ∧ (f.signal = none → reason = superseded)) ∧
      (¬f.HasCheckAhead → result = (f.request.run none).1) := by
  have howned := hist.recorded.1
  obtain ⟨reason, hmem, hreason⟩ := howned.exists_cancelled hf request
  obtain ⟨made, hmem'⟩ := later.exists_mem (howned.start request) (f := { f with signal := some (f.stop, reason) })
    hmem ha (by simp) hresume habort
  obtain ⟨hfinish, hall⟩ := (later.owned (howned.start request)).result_eq hmem' ha
  refine ⟨_, hfinish, hall, fun hahead => ⟨reason, ?_, hreason⟩, fun hahead => ?_⟩
  · exact Flight.result_of_hasCheckAhead rfl hahead
  · exact Flight.result_of_not_hasCheckAhead rfl hahead

/-- A pass that is superseded after the first of its three checks, and whose worker has seen it before a third
pass is started. -/
theorem superseded_of_hasCheckAhead_working :
    letI := Lenient.decoder
    let request : Request := { source := .text "\x7b\"a\": 1\x7d", rootName := "Root" }
    let f : Flight := { token := 0, request, made := 1 }
    let r : Runner := { current := some 0, started := 1, flights := [f] }
    let r' : Runner := {
      current := some 2
      started := 3
      flights := [{ f with made := 2, signal := some (1, superseded) },
        { token := 1, request, signal := some (0, superseded) }, { token := 2, request }] }
    History {} [.start request, .work 0] r ∧ f ∈ r.flights ∧ f.HasCheckAhead ∧
      History (r.start request) [.work 0, .start request] r' ∧
      (r'.finish 0).1 = some (.ok (.cancelled superseded)) := by
  generalize Lenient.decoder = json5
  intro request f r r'
  let r₁ : Runner := { current := some 0, started := 1, flights := [{ token := 0, request }] }
  have hwork : r₁.work 0 = r := by cbv
  have hlate : ((r.start request).work 0).start request = r' := by cbv
  have hist : History {} [.start request, .work 0] r := by
    have h₁ : History {} [.start request] r₁ := .snoc (.nil _) (.start _ request)
    have h₂ := h₁.snoc (.work (List.mem_singleton_self _))
    rwa [show r₁.work (Flight.mk 0 request 0 none false).token = r from hwork] at h₂
  have later : History (r.start request) [.work 0, .start request] r' := by
    have h₁ : History (r.start request) [.work 0] ((r.start request).work 0) :=
      .snoc (.nil _) (.work (f := { f with signal := some (1, superseded) }) (List.mem_cons_self ..))
    exact hlate ▸ h₁.snoc (.start _ request)
  have hahead : f.HasCheckAhead := by
    have hchecks : (f.request.run none).2.checks = 3 := by cbv
    rw [Flight.HasCheckAhead, hchecks]
    decide
  obtain ⟨result, hfinish, -, hcut, -⟩ := superseded_of_hasCheckAhead hist (List.mem_singleton_self f) rfl later
    (by simp) (by simp)
  obtain ⟨reason, rfl, hreason⟩ := hcut hahead
  exact ⟨hist, List.mem_singleton_self f, hahead, later, hreason rfl ▸ hfinish⟩

/-- Not every superseded pass is cancelled. A pass whose worker has made its last check before a newer pass is
started returns its tree; one without a root name makes no check at all, and returns its fault. -/
theorem superseded_after_last_check :
    letI := Lenient.decoder
    let request : Request := { source := .text "\x7b\"a\": 1\x7d", rootName := "Root" }
    let nameless : Request := { request with rootName := "" }
    let root : ObjectShape := ⟨"Root", 0, [("a", .prim .integer)]⟩
    (∃ r r', History {} [.start request, .work 0, .work 0, .work 0, .start request] r ∧
      r.resume 0 = (some (.ok (.succeeded { root })), r')) ∧
    ∃ r r', History {} [.start nameless, .start request] r ∧
      r.resume 0 = (some (.error .emptyRootName), r') := by
  generalize Lenient.decoder = json5
  intro request nameless root
  constructor
  · let r₁ : Runner := { current := some 0, started := 1, flights := [{ token := 0, request }] }
    let worked (made : Nat) : Runner := { r₁ with flights := [{ token := 0, request, made }] }
    have hwork : r₁.work 0 = worked 1 ∧ (worked 1).work 0 = worked 2 ∧ (worked 2).work 0 = worked 3 := by
      cbv
      exact ⟨rfl, rfl, rfl⟩
    have hresume : ((worked 3).start request).resume 0 = (some (.ok (.succeeded { root })),
        { current := some 1, started := 2, flights := [{ token := 1, request }] }) := by cbv
    refine ⟨_, _, ?_, hresume⟩
    have h₁ : History {} [.start request] r₁ := .snoc (.nil _) (.start _ request)
    have h₂ : History {} [.start request, .work 0] (worked 1) :=
      hwork.1 ▸ h₁.snoc (.work (f := { token := 0, request }) (List.mem_singleton_self _))
    have h₃ : History {} [.start request, .work 0, .work 0] (worked 2) :=
      hwork.2.1 ▸ h₂.snoc (.work (f := { token := 0, request, made := 1 }) (List.mem_singleton_self _))
    have h₄ : History {} [.start request, .work 0, .work 0, .work 0] (worked 3) :=
      hwork.2.2 ▸ h₃.snoc (.work (f := { token := 0, request, made := 2 }) (List.mem_singleton_self _))
    exact h₄.snoc (.start _ request)
  · have hresume : ((({} : Runner).start nameless).start request).resume 0 = (some (.error .emptyRootName),
        { current := some 1, started := 2, flights := [{ token := 1, request }] }) := by cbv
    exact ⟨_, _, .snoc (.snoc (.nil _) (.start _ nameless)) (.start _ request), hresume⟩

end Runner
end JsonShape
