import JsonShape.Document.Lenient
import JsonShape.Proofs.Runner.Ownership
import Mathlib

/-!
# Histories of a runner

What can happen to a runner, one step after the other, and in any order: passes are started, their workers
make checks, passes whose workers have ended are resumed, callers go away, passes are cancelled, and workers
that were left behind come to their end. A history is the list of what has happened. It says which pass has
which token, which passes have returned and which workers are left behind, and the runner agrees with it;
that a runner owns its token is then a fact about histories.
-/

namespace JsonShape.Runner

variable {r r' : Runner} {token : Nat} {f : Flight}

/-! ### What happens to a runner -/

/-- What can happen to a runner. -/
inductive Happening
  /-- A caller starts a pass. -/
  | start (request : Request)
  /-- The worker of a pass makes a check. -/
  | work (token : Nat)
  /-- The worker of a pass makes all its checks. -/
  | drain (token : Nat)
  /-- The worker of a pass has ended, and the pass returns what it hands over. -/
  | resume (token : Nat)
  /-- The caller of a pass goes away, and its worker is left behind. -/
  | abort (token : Nat)
  /-- The pass whose token is held is cancelled. -/
  | cancel (reason : String)
  /-- The worker of a pass without a caller has ended. -/
  | reap (token : Nat)

namespace Happening

/-- The pass that is started. -/
def request? : Happening → Option Request
  | start request => some request
  | work _ | drain _ | resume _ | abort _ | cancel _ | reap _ => none

/-- The token of the pass that it happens to, if that has been started before. -/
def token? : Happening → Option Nat
  | work t | drain t | resume t | abort t | reap t => some t
  | start _ | cancel _ => none

/-- The happening ends the pass of a token, or the worker that the pass has left behind. -/
def Ends (e : Happening) (token : Nat) : Prop := e = resume token ∨ e = abort token ∨ e = reap token

end Happening

/-- A runner before and after something happens to it. -/
inductive Step [Json5Decoder] : Runner → Happening → Runner → Prop
  | start (r : Runner) (request : Request) : Step r (.start request) (r.start request)
  | work {r : Runner} {f : Flight} : f ∈ r.flights → Step r (.work f.token) (r.work f.token)
  | drain {r : Runner} {f : Flight} : f ∈ r.flights → Step r (.drain f.token) (r.drain f.token)
  | resume {r r' : Runner} {token : Nat} {result : Except Fault Outcome} :
      r.resume token = (some result, r') → Step r (.resume token) r'
  | abort {r : Runner} {f : Flight} : f ∈ r.flights → f.abandoned = false →
      Step r (.abort f.token) (r.abort f.token)
  | cancel (r : Runner) (reason : String) : Step r (.cancel reason) (r.cancel reason).2
  | reap {r : Runner} {f : Flight} : f ∈ r.flights → f.ended = true → f.abandoned = true →
      Step r (.reap f.token) (r.reap f.token)

/-- A runner before and after a history. -/
inductive History [Json5Decoder] : Runner → List Happening → Runner → Prop
  | nil (r : Runner) : History r [] r
  | snoc {r r' r'' : Runner} {es : List Happening} {e : Happening} :
      History r es r' → Step r' e r'' → History r (es ++ [e]) r''

/-- The passes that are started in a history, in order: the token of a pass is its place among them. -/
def requests (es : List Happening) : List Request := es.filterMap Happening.request?

theorem requests_snoc_start (es : List Happening) (request : Request) :
    requests (es ++ [.start request]) = requests es ++ [request] := by
  simp [requests, Happening.request?]

theorem requests_snoc {es : List Happening} {e : Happening} (h : e.request? = none) :
    requests (es ++ [e]) = requests es := by
  simp [requests, h]

/-! ### Ownership -/

/-- A pass in flight is the pass with its token. -/
theorem Owned.flight?_token (h : r.Owned) (hf : f ∈ r.flights) : r.flight? f.token = some f := by
  cases hx : r.flight? f.token with
  | none =>
    have hnone := List.find?_eq_none.mp hx f hf
    simp at hnone
  | some x =>
    obtain ⟨hmem, htoken⟩ := mem_of_flight? hx
    rw [h.eq_of_token hmem hf htoken]

/-- What is reaped is dropped. -/
theorem Owned.reap_eq [Json5Decoder] (h : r.Owned) (hf : f ∈ r.flights) (he : f.ended = true)
    (ha : f.abandoned = true) : r.reap f.token = r.land f.token := by
  unfold Runner.reap
  simp [h.flight?_token hf, he, ha]

theorem Step.owned [Json5Decoder] {e : Happening} (hstep : Step r e r') (h : r.Owned) : r'.Owned := by
  cases hstep with
  | start request => exact h.start _
  | work _ => exact h.progress Flight.isProgress_work _
  | drain _ => exact h.progress Flight.isProgress_drain _
  | resume hr =>
    obtain ⟨_, _, _, _, _, rfl⟩ := resume_eq_some_iff.mp hr
    exact h.land_release _
  | abort _ _ => exact h.abort _
  | cancel reason => exact h.cancel _
  | reap _ _ _ => exact h.reap _

theorem History.owned [Json5Decoder] {es : List Happening} (hist : History r es r') (h : r.Owned) : r'.Owned := by
  induction hist with
  | nil => exact h
  | snoc _ hstep ih => exact hstep.owned ih

/-- The end of a pass does not touch the token of another. -/
theorem Step.current_of_ends [Json5Decoder] {e : Happening} {ended : Nat} (hstep : Step r e r') (h : r.Owned)
    (he : e.Ends ended) (ht : r.current = some token) (hne : token ≠ ended) : r'.current = some token := by
  rcases he with rfl | rfl | rfl
  · cases hstep with
    | resume hr =>
      obtain ⟨_, _, _, _, _, rfl⟩ := resume_eq_some_iff.mp hr
      exact current_release_eq_some_iff.mpr ⟨ht, hne⟩
  · cases hstep with
    | abort _ _ => exact current_release_eq_some_iff.mpr ⟨ht, hne⟩
  · cases hstep with
    | reap hf hend ha =>
      rw [h.reap_eq hf hend ha]
      exact ht

/-! ### Passes under a step -/

/-- Cancelling changes passes in flight in nothing but their signals. -/
theorem exists_flights_cancel (r : Runner) (reason : String) : ∃ g : Flight → Flight,
    (∀ f, (g f).token = f.token ∧ (g f).request = f.request ∧ (g f).abandoned = f.abandoned) ∧
      (r.cancel reason).2.flights = r.flights.map g := by
  unfold Runner.cancel
  cases r.current with
  | none => exact ⟨id, fun _ => ⟨rfl, rfl, rfl⟩, (List.map_id _).symm⟩
  | some token =>
    refine ⟨_, fun f => ?_, rfl⟩
    split
    · exact ⟨rfl, rfl, rfl⟩
    · exact ⟨rfl, rfl, rfl⟩

/-! ### What a history says of a runner -/

/-- The runner is as the history says. -/
structure Recorded (es : List Happening) (r : Runner) : Prop where
  /-- So many passes have been started. -/
  started_eq : r.started = (requests es).length
  /-- A token is the place of its pass among those that have been started. -/
  request_eq : ∀ f ∈ r.flights, (requests es)[f.token]? = some f.request
  /-- A pass is in flight from its start until it returns, or until the worker that it has left behind ends. -/
  inFlight_iff : ∀ t, (∃ f ∈ r.flights, f.token = t) ↔
    t < r.started ∧ .resume t ∉ es ∧ .reap t ∉ es
  /-- The caller of a pass is gone if it has been taken away. -/
  abandoned_iff : ∀ f ∈ r.flights, f.abandoned = true ↔ .abort f.token ∈ es
  /-- A pass whose caller is gone does not return. -/
  not_resume : ∀ t, .abort t ∈ es → .resume t ∉ es
  /-- A worker that is left behind has been left by a caller. -/
  abort_of_reap : ∀ t, .reap t ∈ es → .abort t ∈ es
  /-- Nothing has happened to passes that have not been started. -/
  token_lt : ∀ e ∈ es, ∀ t, e.token? = some t → t < r.started

namespace Recorded

variable {es : List Happening} {e : Happening}

theorem empty : Recorded [] {} where
  started_eq := rfl
  request_eq _ hf := nomatch hf
  inFlight_iff t := by simp
  abandoned_iff _ hf := nomatch hf
  not_resume _ h := nomatch h
  abort_of_reap _ h := nomatch h
  token_lt _ he := nomatch he

theorem not_mem (h : Recorded es r) {t : Nat} (he : e.token? = some t) (ht : r.started ≤ t) : e ∉ es :=
  fun hmem => Nat.not_lt.mpr ht (h.token_lt e hmem t he)

/-- The token of a pass that is in flight is that of one that has been started. -/
theorem lt_started (h : Recorded es r) (hf : f ∈ r.flights) : f.token < r.started :=
  ((h.inFlight_iff f.token).mp ⟨f, hf, rfl⟩).1

/-- The pass with the token of a start is in flight, and nothing has happened to it. -/
theorem start (h : Recorded es r) (request : Request) :
    Recorded (es ++ [.start request]) (r.start request) := by
  obtain ⟨g, hg, hflights⟩ := exists_flights_cancel r superseded
  have hmem (f : Flight) : f ∈ (r.start request).flights ↔
      (∃ x ∈ r.flights, g x = f) ∨ f = { token := r.started, request } := by
    rw [mem_start, hflights, List.mem_map]
  refine {
    started_eq := by rw [started_start, requests_snoc_start, List.length_append, h.started_eq]; rfl
    request_eq := fun f hf => ?request_eq
    inFlight_iff := fun t => ?inFlight_iff
    abandoned_iff := fun f hf => ?abandoned_iff
    not_resume := fun t => by simpa using h.not_resume t
    abort_of_reap := fun t => by simpa using h.abort_of_reap t
    token_lt := fun e he t ht => ?token_lt }
  case request_eq =>
    rw [requests_snoc_start]
    rcases (hmem f).mp hf with ⟨x, hx, rfl⟩ | rfl
    · rw [(hg x).1, (hg x).2.1, List.getElem?_append_left (h.started_eq ▸ h.lt_started hx)]
      exact h.request_eq x hx
    · show (requests es ++ [request])[r.started]? = some request
      rw [h.started_eq, List.getElem?_concat_length]
  case inFlight_iff =>
    rw [started_start]
    simp only [List.mem_append, List.mem_singleton, reduceCtorEq, or_false]
    constructor
    · rintro ⟨f, hf, rfl⟩
      rcases (hmem f).mp hf with ⟨x, hx, rfl⟩ | rfl
      · obtain ⟨hlt, hnot⟩ := (h.inFlight_iff x.token).mp ⟨x, hx, rfl⟩
        rw [(hg x).1]
        exact ⟨Nat.lt_succ_of_lt hlt, hnot⟩
      · exact ⟨Nat.lt_succ_self _, h.not_mem rfl (Nat.le_refl _), h.not_mem rfl (Nat.le_refl _)⟩
    · rintro ⟨hlt, hnot⟩
      rcases Nat.lt_succ_iff_lt_or_eq.mp hlt with hlt | rfl
      · obtain ⟨x, hx, rfl⟩ := (h.inFlight_iff t).mpr ⟨hlt, hnot⟩
        exact ⟨g x, (hmem _).mpr (.inl ⟨x, hx, rfl⟩), (hg x).1⟩
      · exact ⟨_, (hmem _).mpr (.inr rfl), rfl⟩
  case abandoned_iff =>
    simp only [List.mem_append, List.mem_singleton, reduceCtorEq, or_false]
    rcases (hmem f).mp hf with ⟨x, hx, rfl⟩ | rfl
    · rw [(hg x).1, (hg x).2.2]
      exact h.abandoned_iff x hx
    · exact iff_of_false Bool.false_ne_true (h.not_mem rfl (Nat.le_refl _))
  case token_lt =>
    rw [started_start]
    rcases List.mem_append.mp he with he | he
    · exact Nat.lt_succ_of_lt (h.token_lt e he t ht)
    · rw [List.mem_singleton.mp he] at ht
      cases ht

/-- A step that changes passes in flight, and takes away no caller but that of the pass that it aborts. -/
theorem change (h : Recorded es r) {g : Flight → Flight} (hrequest : e.request? = none)
    (htoken : ∀ t, e.token? = some t → t < r.started) (hlands : ∀ t, e ≠ .resume t ∧ e ≠ .reap t)
    (hopen : ∀ t, e = .abort t → .resume t ∉ es)
    (hstarted : r'.started = r.started) (hflights : r'.flights = r.flights.map g)
    (hg : ∀ f, (g f).token = f.token ∧ (g f).request = f.request)
    (hcaller : ∀ f ∈ r.flights, (g f).abandoned = true ↔ f.abandoned = true ∨ e = .abort f.token) :
    Recorded (es ++ [e]) r' := by
  refine {
    started_eq := by rw [hstarted, requests_snoc hrequest, h.started_eq]
    request_eq := fun f' hf' => ?request_eq
    inFlight_iff := fun t => ?inFlight_iff
    abandoned_iff := fun f' hf' => ?abandoned_iff
    not_resume := fun t ht => ?not_resume
    abort_of_reap := fun t ht => ?abort_of_reap
    token_lt := fun e' he' t ht => ?token_lt }
  case request_eq =>
    rw [hflights] at hf'
    obtain ⟨f, hf, rfl⟩ := List.mem_map.mp hf'
    rw [requests_snoc hrequest, (hg f).1, (hg f).2]
    exact h.request_eq f hf
  case inFlight_iff =>
    have hsame : (∃ f' ∈ r'.flights, f'.token = t) ↔ ∃ f ∈ r.flights, f.token = t := by
      simp [hflights, (hg _).1]
    rw [hsame, h.inFlight_iff, hstarted]
    simp [(hlands t).1.symm, (hlands t).2.symm]
  case abandoned_iff =>
    rw [hflights] at hf'
    obtain ⟨f, hf, rfl⟩ := List.mem_map.mp hf'
    rw [hcaller f hf, h.abandoned_iff f hf, (hg f).1, List.mem_append, List.mem_singleton, eq_comm]
  case not_resume =>
    rw [List.mem_append, List.mem_singleton, not_or]
    refine ⟨?_, (hlands t).1.symm⟩
    rcases List.mem_append.mp ht with ht | ht
    · exact h.not_resume t ht
    · exact hopen t (List.mem_singleton.mp ht).symm
  case abort_of_reap =>
    have hreap : .reap t ∈ es := (List.mem_append.mp ht).resolve_right fun ht =>
      (hlands t).2 (List.mem_singleton.mp ht).symm
    exact List.mem_append_left _ (h.abort_of_reap t hreap)
  case token_lt =>
    rw [hstarted]
    rcases List.mem_append.mp he' with he' | he'
    · exact h.token_lt e' he' t ht
    · exact htoken t (List.mem_singleton.mp he' ▸ ht)

/-- A step that takes a pass out of flight. -/
theorem land (h : Recorded es r) {t : Nat} (he : e = .resume t ∨ e = .reap t)
    (habort : .abort t ∈ es ↔ e = .reap t) (ht : t < r.started) (hstarted : r'.started = r.started)
    (hmem : ∀ f, f ∈ r'.flights ↔ f ∈ r.flights ∧ f.token ≠ t) : Recorded (es ++ [e]) r' := by
  have hrequest : e.request? = none := by rcases he with rfl | rfl <;> rfl
  refine {
    started_eq := by rw [hstarted, requests_snoc hrequest, h.started_eq]
    request_eq := fun f hf => by rw [requests_snoc hrequest, h.request_eq f ((hmem f).mp hf).1]
    inFlight_iff := fun u => ?inFlight_iff
    abandoned_iff := fun f hf => ?abandoned_iff
    not_resume := fun u hu => ?not_resume
    abort_of_reap := fun u hu => ?abort_of_reap
    token_lt := fun e' he' u hu => ?token_lt }
  case inFlight_iff =>
    have hout : (∃ f ∈ r'.flights, f.token = u) ↔ (∃ f ∈ r.flights, f.token = u) ∧ u ≠ t := by
      simp only [hmem]
      constructor
      · rintro ⟨f, ⟨hf, hne⟩, rfl⟩
        exact ⟨⟨f, hf, rfl⟩, hne⟩
      · rintro ⟨⟨f, hf, rfl⟩, hne⟩
        exact ⟨f, ⟨hf, hne⟩, rfl⟩
    rw [hout, h.inFlight_iff, hstarted]
    rcases he with rfl | rfl
    · simp only [List.mem_append, List.mem_singleton, Happening.resume.injEq, reduceCtorEq, or_false, not_or]
      tauto
    · simp only [List.mem_append, List.mem_singleton, Happening.reap.injEq, reduceCtorEq, or_false, not_or]
      tauto
  case abandoned_iff =>
    have hne : .abort f.token ≠ e := by rcases he with rfl | rfl <;> simp
    rw [h.abandoned_iff f ((hmem f).mp hf).1]
    simp [hne]
  case not_resume =>
    have habort' : .abort u ∈ es := by rcases he with rfl | rfl <;> simpa using hu
    have hu' : .resume u ≠ e := by
      rintro rfl
      obtain rfl : u = t := by simpa using he
      exact nomatch habort.mp habort'
    simpa [hu'] using h.not_resume u habort'
  case abort_of_reap =>
    rcases List.mem_append.mp hu with hu | hu
    · exact List.mem_append_left _ (h.abort_of_reap u hu)
    · obtain rfl := List.mem_singleton.mp hu
      obtain rfl : u = t := by simpa using he
      exact List.mem_append_left _ (habort.mpr rfl)
  case token_lt =>
    rw [hstarted]
    rcases List.mem_append.mp he' with he' | he'
    · exact h.token_lt e' he' u hu
    · rw [List.mem_singleton.mp he'] at hu
      rcases he with rfl | rfl <;> cases hu <;> exact ht

/-- A pass in flight has its caller just if it has not returned and its caller has not gone away. -/
theorem exists_open_iff (h : Recorded es r) (t : Nat) : (∃ f ∈ r.flights, f.token = t ∧ f.abandoned = false) ↔
    t < (requests es).length ∧ .resume t ∉ es ∧ .abort t ∉ es := by
  rw [← h.started_eq]
  constructor
  · rintro ⟨f, hf, rfl, ha⟩
    obtain ⟨hlt, hresume, -⟩ := (h.inFlight_iff f.token).mp ⟨f, hf, rfl⟩
    exact ⟨hlt, hresume, fun hgone => by simp [(h.abandoned_iff f hf).mpr hgone] at ha⟩
  · rintro ⟨hlt, hresume, hgone⟩
    obtain ⟨f, hf, rfl⟩ := (h.inFlight_iff t).mpr ⟨hlt, hresume, fun hreap => hgone (h.abort_of_reap t hreap)⟩
    exact ⟨f, hf, rfl, Bool.eq_false_iff.mpr fun ha => hgone ((h.abandoned_iff f hf).mp ha)⟩

/-- A worker is left behind from when its caller goes away until it ends. -/
theorem exists_abandoned_iff (h : Recorded es r) (t : Nat) :
    (∃ f ∈ r.flights, f.token = t ∧ f.abandoned = true) ↔ .abort t ∈ es ∧ .reap t ∉ es := by
  constructor
  · rintro ⟨f, hf, rfl, ha⟩
    exact ⟨(h.abandoned_iff f hf).mp ha, ((h.inFlight_iff f.token).mp ⟨f, hf, rfl⟩).2.2⟩
  · rintro ⟨hgone, hreap⟩
    obtain ⟨f, hf, rfl⟩ := (h.inFlight_iff t).mpr ⟨h.token_lt _ hgone t rfl, h.not_resume t hgone, hreap⟩
    exact ⟨f, hf, rfl, (h.abandoned_iff f hf).mpr hgone⟩

end Recorded

/-- A history goes on as what happens to the runner says. -/
theorem Step.recorded [Json5Decoder] {es : List Happening} {e : Happening} (hstep : Step r e r') (h : Recorded es r)
    (howned : r.Owned) : Recorded (es ++ [e]) r' := by
  -- a worker's progress, the end of a caller and a cancellation change passes in place
  have update {u : Nat} {g : Flight → Flight} (hg : ∀ f, (g f).token = f.token ∧ (g f).request = f.request)
      (f : Flight) : (if f.token = u then g f else f).token = f.token ∧
        (if f.token = u then g f else f).request = f.request := by
    split
    · exact hg f
    · exact ⟨rfl, rfl⟩
  cases hstep with
  | start request => exact h.start _
  | @work f hf =>
    refine h.change rfl ?_ (by simp) (by simp) rfl rfl (update fun _ => ⟨rfl, rfl⟩) fun x _ => ?_
    · rintro _ ⟨⟩
      exact h.lt_started hf
    · split <;> simp [Flight.work]
  | @drain f hf =>
    refine h.change rfl ?_ (by simp) (by simp) rfl rfl (update fun _ => ⟨rfl, rfl⟩) fun x _ => ?_
    · rintro _ ⟨⟩
      exact h.lt_started hf
    · split <;> simp [Flight.drain]
  | @resume _ token result hr =>
    obtain ⟨f, hf, -, ha, -, rfl⟩ := resume_eq_some_iff.mp hr
    obtain ⟨hmem, rfl⟩ := mem_of_flight? hf
    have habort : .abort f.token ∉ es := fun hgone => by
      rw [(h.abandoned_iff f hmem).mpr hgone] at ha
      cases ha
    refine h.land (.inl rfl) (iff_of_false habort (by simp)) (h.lt_started hmem)
      (by rw [started_release]; rfl) fun x => ?_
    rw [flights_release, mem_land]
  | @abort f hf ha =>
    refine h.change rfl ?_ (by simp) ?_ (by rw [Runner.abort, started_release]; rfl) ?_
      (update (u := f.token) (g := fun x => { x.cancel callerGone with abandoned := true })
        fun _ => ⟨rfl, rfl⟩) fun x _ => ?_
    · rintro _ ⟨⟩
      exact h.lt_started hf
    · rintro _ ⟨⟩
      exact ((h.inFlight_iff f.token).mp ⟨f, hf, rfl⟩).2.1
    · rw [Runner.abort, flights_release]
      rfl
    · by_cases hx : x.token = f.token
      · simp [hx]
      · simp [hx, Ne.symm hx]
  | cancel reason =>
    obtain ⟨g, hg, hflights⟩ := exists_flights_cancel r reason
    refine h.change rfl (by rintro _ ⟨⟩) (by simp) (by simp) (follows_cancel r reason).started_eq hflights
      (fun f => ⟨(hg f).1, (hg f).2.1⟩) fun x _ => ?_
    simp [(hg x).2.2]
  | @reap f hf he ha =>
    rw [howned.reap_eq hf he ha]
    exact h.land (.inr rfl) (iff_of_true ((h.abandoned_iff f hf).mp ha) rfl) (h.lt_started hf) rfl fun x => mem_land

/-- Whatever has happened to a runner, it owns its token and is as its history says. -/
theorem History.recorded [Json5Decoder] {es : List Happening} (hist : History {} es r) : r.Owned ∧ Recorded es r := by
  induction hist with
  | nil => exact ⟨owned_empty, Recorded.empty⟩
  | snoc _ hstep ih => exact ⟨hstep.owned ih.1, hstep.recorded ih.2 ih.1⟩

/-! ### Who holds the token -/

/-- **A runner owns its token**, whatever has happened to it. The passes in flight are those that have been
started and have not returned, and the workers left behind by callers that are gone. The token held is that of
the last pass that has been started; this pass has not returned, and it is not cancelled. Every other pass in
flight is cancelled. The end of a pass does not touch the token of another. Cancelling succeeds just if a token
is held, and leaves no pass uncancelled. While all callers are gone, no token is held. -/
theorem ownership_of_history [Json5Decoder] {es : List Happening} (hist : History {} es r) :
    (r.flights.map (·.token)).Nodup ∧
    (∀ f ∈ r.flights, (requests es)[f.token]? = some f.request) ∧
    (∀ t, (∃ f ∈ r.flights, f.token = t ∧ f.abandoned = false) ↔
      t < (requests es).length ∧ .resume t ∉ es ∧ .abort t ∉ es) ∧
    (∀ t, (∃ f ∈ r.flights, f.token = t ∧ f.abandoned = true) ↔ .abort t ∈ es ∧ .reap t ∉ es) ∧
    (∀ t, r.current = some t → t + 1 = (requests es).length ∧ .resume t ∉ es ∧ .abort t ∉ es ∧
      ∃ f ∈ r.flights, f.token = t ∧ f.signal = none) ∧
    (∀ f ∈ r.flights, r.current ≠ some f.token → f.signal ≠ none) ∧
    (∀ e r' t ended, Step r e r' → e.Ends ended → r.current = some t → t ≠ ended → r'.current = some t) ∧
    (∀ reason, ((r.cancel reason).1 = true ↔ ∃ t, r.current = some t) ∧
      ∀ f ∈ (r.cancel reason).2.flights, f.signal ≠ none) ∧
    ((∀ f ∈ r.flights, f.abandoned = true) → r.current = none) := by
  obtain ⟨howned, h⟩ := hist.recorded
  refine ⟨howned.tokens_nodup, h.request_eq, h.exists_open_iff, h.exists_abandoned_iff, fun t ht => ?held,
    fun f hf hne hlive => hne (howned.current_eq f hf hlive),
    fun e r' t ended hstep he ht hne => hstep.current_of_ends howned he ht hne, fun reason => ⟨?cancel, ?cut⟩,
    fun hgone => ?idle⟩
  case held =>
    obtain ⟨f, hf, hft, hlive, ha⟩ := howned.exists_current ht
    obtain ⟨-, hresume, habort⟩ := (h.exists_open_iff t).mp ⟨f, hf, hft, ha⟩
    exact ⟨h.started_eq ▸ howned.current_last ht, hresume, habort, f, hf, hft, hlive⟩
  case cancel =>
    rw [cancel_eq_true_iff, running_iff]
  case cut =>
    intro f hf hlive
    have hcurrent := (howned.cancel reason).current_eq f hf hlive
    rw [current_cancel] at hcurrent
    cases hcurrent
  case idle =>
    refine Option.eq_none_iff_forall_ne_some.mpr fun t ht => ?_
    obtain ⟨f, hf, -, -, ha⟩ := howned.exists_current ht
    rw [hgone f hf] at ha
    cases ha

/-- Three passes, of which each supersedes the one before. The caller of the second goes away, and the first
returns while the third has the token: the worker of the second is left behind with a cancelled token, and the
token of the third is held. -/
theorem ownership_of_history_superseded :
    letI := Lenient.decoder
    let request : Request := { source := .text "[]", rootName := "Root" }
    let behind : Flight := { token := 1, request, signal := some (0, callerGone), abandoned := true }
    let last : Flight := { token := 2, request }
    let es : List Happening :=
      [.start request, .start request, .abort 1, .start request, .work 0, .resume 0]
    let r : Runner := { current := some 2, started := 3, flights := [behind, last] }
    History {} es r ∧ (2 + 1 = (requests es).length ∧ .resume 2 ∉ es ∧ .abort 2 ∉ es) ∧
      behind.signal ≠ none ∧ (r.cancel "stop").1 = true := by
  generalize Lenient.decoder = json5
  intro request behind last es r
  let first : Flight := { token := 0, request, signal := some (0, superseded) }
  let r₁ : Runner := { current := some 0, started := 1, flights := [{ token := 0, request }] }
  let r₂ : Runner := { current := some 1, started := 2, flights := [first, { token := 1, request }] }
  let r₃ : Runner := { started := 2, flights := [first, behind] }
  let r₄ : Runner := { current := some 2, started := 3, flights := [first, behind, last] }
  let r₅ : Runner := { r₄ with flights := [{ first with made := 1 }, behind, last] }
  have h₁ : History {} [.start request] r₁ := .snoc (.nil _) (.start _ request)
  have h₂ : History {} [.start request, .start request] r₂ := h₁.snoc (.start _ request)
  have h₃ : History {} [.start request, .start request, .abort 1] r₃ :=
    h₂.snoc (.abort (f := { token := 1, request }) (List.mem_cons_of_mem _ (List.mem_singleton_self _)) rfl)
  have h₄ : History {} [.start request, .start request, .abort 1, .start request] r₄ :=
    h₃.snoc (.start _ request)
  have hwork : r₄.work 0 = r₅ := by cbv
  have hresume : r₅.resume 0 = (some (.ok (.cancelled superseded)), r) := by
    cbv
  have hist : History {} es r := by
    have h₅ := h₄.snoc (.work (List.mem_cons_self ..))
    rw [show r₄.work first.token = r₅ from hwork] at h₅
    exact h₅.snoc (.resume hresume)
  obtain ⟨-, -, -, -, hheld, hcut, -, hcancel, -⟩ := ownership_of_history hist
  obtain ⟨hlast, hresumed, haborted, -⟩ := hheld 2 rfl
  exact ⟨hist, ⟨hlast, hresumed, haborted⟩, hcut behind (List.mem_cons_self ..) (by decide),
    (hcancel "stop").1.mpr ⟨2, rfl⟩⟩

end JsonShape.Runner
