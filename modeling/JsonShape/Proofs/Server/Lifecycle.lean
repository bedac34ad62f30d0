import JsonShape.Document.Lenient
import JsonShape.Proofs.KeyedList
import JsonShape.Proofs.Runner.Ownership
import JsonShape.Server

/-!
# The life of runners on the server

The server in whatever order things happen to it: tools are called, workers make progress, passes whose
workers have ended are resumed, callers go away, and workers that they left behind come to their end. One
step is what happens between two points at which requests wait. A session is the server together with the
tickets of all requests that it has let start, which name the passes in flight.
-/

namespace JsonShape

/-! ### Sessions and their steps -/

/-- A server and the tickets of the requests that it has let start. -/
structure Session where
  server : Server
  tickets : List Ticket := []

namespace Session

/-- What can happen to a session. -/
inductive Happening
  /-- A tool is called. -/
  | call (c : ToolCall)
  /-- The worker of a pass makes a check. -/
  | work (t : Ticket)
  /-- The worker of a pass makes all its checks. -/
  | drain (t : Ticket)
  /-- A pass whose worker has ended is resumed, and its request is over. -/
  | resume (t : Ticket)
  /-- The caller of a pass goes away, and its request is over. -/
  | abort (t : Ticket)
  /-- The worker of a pass without a caller is gone, if it has ended. -/
  | reap (t : Ticket)

/-- The pass of a ticket is in flight. -/
def InFlight (y : Session) (t : Ticket) (f : Flight) : Prop :=
  t ∈ y.tickets ∧ f ∈ (y.server.runner t.runner).flights ∧ f.token = t.token

/-- A session before and after something happens to it. -/
inductive Step [Json5Decoder] : Session → Happening → Session → Prop
  | start {y : Session} {c : ToolCall} {t : Ticket} {s : Server} :
      y.server.accept c = (.ok t, s) → Step y (.call c) ⟨s, y.tickets ++ [t]⟩
  | answer {y : Session} {c : ToolCall} {a : ToolAnswer} {s : Server} :
      y.server.accept c = (.error a, s) → Step y (.call c) ⟨s, y.tickets⟩
  | work {y : Session} {t : Ticket} : t ∈ y.tickets → Step y (.work t) ⟨y.server.work t, y.tickets⟩
  | drain {y : Session} {t : Ticket} : t ∈ y.tickets → Step y (.drain t) ⟨y.server.drain t, y.tickets⟩
  | resume {y : Session} {t : Ticket} {result : Except Fault Outcome} {s : Server} : t ∈ y.tickets →
      y.server.resume t = (some result, s) → Step y (.resume t) ⟨s, y.tickets⟩
  | abort {y : Session} {t : Ticket} {f : Flight} : y.InFlight t f → f.abandoned = false →
      Step y (.abort t) ⟨y.server.abort t, y.tickets⟩
  | reap {y : Session} {t : Ticket} : t ∈ y.tickets →
      Step y (.reap t) ⟨y.server.update t.runner (·.reap t.token), y.tickets⟩

/-- The sessions that a server with some settings can come to. -/
inductive Reachable [Json5Decoder] : Session → Prop
  | init (parser : ParserOptions) (output : OutputOptions) : Reachable { server := { parser, output } }
  | step {y y' : Session} {e : Happening} : Reachable y → Step y e y' → Reachable y'

/-- What may cancel the pass of a ticket: a request for its document, a call to cancel the document's pass, and
that its own caller goes away. -/
def Happening.Cancels : Happening → Ticket → Prop
  | .call (.infer q), t => q.documentId = t.documentId
  | .call (.cancel documentId), t => documentId = t.documentId
  | .abort u, t => u = t
  | .call .health, _ | .work _, _ | .drain _, _ | .resume _, _ | .reap _, _ => False

/-- A pass for the document is in flight and not cancelled. -/
def Live (y : Session) (documentId : String) : Prop :=
  ∃ t f, y.InFlight t f ∧ t.documentId = documentId ∧ f.signal = none

end Session

/-! ### Runners by number -/

namespace Server

variable {s : Server} {n m : Nat} {g : Runner → Runner} {documentId : String}

theorem runner_update (hn : n < s.runners.length) :
    (s.update n g).runner m = if m = n then g (s.runner n) else s.runner m := by
  simp only [runner, update, List.getD_eq_getElem?_getD, List.getElem?_modify]
  by_cases hmn : m = n
  · subst hmn
    simp [List.getElem?_eq_getElem hn]
  · simp [hmn, Ne.symm hmn]

@[simp] theorem length_runners_update : (s.update n g).runners.length = s.runners.length :=
  List.length_modify ..

/-- Giving up changes no runner. -/
theorem runner_giveUp : (s.giveUp documentId n).runner m = s.runner m := by
  unfold giveUp
  split <;> rfl

/-- A runner is given up, or is not: then it runs, or is not the document's. -/
theorem giveUp_cases (s : Server) (documentId : String) (n : Nat) :
    (s.giveUp documentId n = { s with registered := s.registered.filter (·.1 ≠ documentId) } ∧
      (s.runner n).running = false ∧ s.registered.lookup documentId = some n) ∨
    (s.giveUp documentId n = s ∧
      ((s.runner n).running = true ∨ s.registered.lookup documentId ≠ some n)) := by
  unfold giveUp
  split
  · next h =>
    simp only [Bool.and_eq_true, Bool.not_eq_true', decide_eq_true_eq] at h
    exact .inl ⟨rfl, h⟩
  · next h =>
    simp only [Bool.and_eq_true, Bool.not_eq_true', decide_eq_true_eq, not_and_or,
      Bool.not_eq_false] at h
    exact .inr ⟨rfl, h⟩

/-- What a request that starts has done: it has claimed a runner and started a pass of it. -/
theorem start_eq_ok {q : Inquiry} {t : Ticket} {s' : Server} (h : s.start q = .ok (t, s')) :
    ∃ n c request, s.claim q.documentId = (n, c) ∧ t.documentId = q.documentId ∧ t.runner = n ∧
      t.token = (c.runner n).started ∧ s' = c.update n (·.start request) := by
  unfold start at h
  cases hname : splitQualifiedName q.typeName with
  | error e => simp [hname, bind, Except.bind] at h
  | ok p =>
    simp only [hname, bind, Except.bind, Except.ok.injEq, Prod.mk.injEq] at h
    obtain ⟨rfl, rfl⟩ := h
    exact ⟨_, _, _, rfl, rfl, rfl, rfl, rfl⟩

/-- What resuming a pass has done: the runner has removed it, and has been given up if it does not run. -/
theorem resume_eq_some [Json5Decoder] {t : Ticket} {result : Except Fault Outcome} {s' : Server}
    (h : s.resume t = (some result, s')) :
    s' = (s.update t.runner fun _ => ((s.runner t.runner).land t.token).release t.token).giveUp
      t.documentId t.runner := by
  unfold resume at h
  rcases hr : (s.runner t.runner).resume t.token with ⟨_ | result', r⟩
  · rw [hr] at h
    cases h
  · rw [hr] at h
    obtain ⟨f, -, -, -, -, rfl⟩ := Runner.resume_eq_some_iff.mp hr
    exact (Prod.mk.inj h).2.symm

/-- Cancelling the pass of a document cancels that of the document's runner, if it has one. -/
theorem cancel_cases (s : Server) (documentId : String) :
    (s.registered.lookup documentId = none ∧ s.cancel documentId = (false, s)) ∨
    ∃ n, s.registered.lookup documentId = some n ∧ s.cancel documentId =
      (((s.runner n).cancel Runner.byCaller).1,
        s.update n fun _ => ((s.runner n).cancel Runner.byCaller).2) := by
  unfold cancel
  cases hlookup : s.registered.lookup documentId with
  | none => exact .inl ⟨rfl, rfl⟩
  | some n => exact .inr ⟨n, rfl, rfl⟩

/-- Cancelling succeeds just if the document has a runner that runs. -/
theorem cancel_eq_true_iff : (s.cancel documentId).1 = true ↔
    ∃ n, s.registered.lookup documentId = some n ∧ (s.runner n).running = true := by
  rcases s.cancel_cases documentId with ⟨hlookup, hs⟩ | ⟨n, hlookup, hs⟩
  · simp [hs, hlookup]
  · simp [hs, hlookup, Runner.cancel_eq_true_iff]

theorem mem_runningDocuments_iff : documentId ∈ s.runningDocuments ↔
    ∃ n, (documentId, n) ∈ s.registered ∧ (s.runner n).running = true := by
  simp [runningDocuments]

/-- Where no document has two runners, none is listed twice. -/
theorem nodup_runningDocuments (h : (s.registered.map (·.1)).Nodup) : s.runningDocuments.Nodup := by
  rw [runningDocuments, (List.mergeSort_perm _ _).nodup_iff]
  exact h.sublist (List.filter_sublist.map _)

/-- A call after which a pass is in flight is a request that has started it. -/
theorem accept_eq_ok {c : ToolCall} {t : Ticket} {s' : Server} (h : s.accept c = (.ok t, s')) :
    ∃ q, c = .infer q ∧ s.start q = .ok (t, s') := by
  cases c with
  | infer q =>
    cases hs : s.start q with
    | ok p =>
      simp only [accept, hs] at h
      cases h
      exact ⟨q, rfl, hs⟩
    | error e =>
      simp only [accept, hs] at h
      cases h
  | cancel documentId => cases h
  | health => cases h

/-- A call that is answered at once changes nothing, unless it cancels a pass. -/
theorem accept_eq_error {c : ToolCall} {a : ToolAnswer} {s' : Server} (h : s.accept c = (.error a, s')) :
    s' = s ∨ ∃ documentId, c = .cancel documentId ∧ s' = (s.cancel documentId).2 := by
  cases c with
  | infer q =>
    cases hs : s.start q with
    | ok p =>
      simp only [accept, hs] at h
      cases h
    | error e =>
      simp only [accept, hs] at h
      exact .inl (Prod.mk.inj h).2.symm
  | cancel documentId => exact .inr ⟨documentId, rfl, (Prod.mk.inj h).2.symm⟩
  | health => exact .inl (Prod.mk.inj h).2.symm

end Server

namespace Session

variable {y y' : Session}

/-! ### What is known of every session -/

/-- What is known of a session at any time. -/
structure Tracked (y : Session) : Prop where
  owned : ∀ n, (y.server.runner n).Owned
  /-- No document has two runners. -/
  registered_nodup : (y.server.registered.map (·.1)).Nodup
  /-- A registered runner has been claimed by a request for the document. -/
  registered_ticket : ∀ d n, (d, n) ∈ y.server.registered →
    ∃ t ∈ y.tickets, t.documentId = d ∧ t.runner = n
  /-- A ticket is for a pass that has been started. -/
  ticket_lt : ∀ t ∈ y.tickets, t.runner < y.server.runners.length ∧
    t.token < (y.server.runner t.runner).started
  /-- Different tickets are for different passes. -/
  ticket_eq : ∀ t ∈ y.tickets, ∀ u ∈ y.tickets, t.runner = u.runner → t.token = u.token → t = u
  /-- A runner has one document. -/
  documentId_eq : ∀ t ∈ y.tickets, ∀ u ∈ y.tickets, t.runner = u.runner → t.documentId = u.documentId
  /-- Each pass in flight has a ticket. -/
  exists_ticket : ∀ n, ∀ f ∈ (y.server.runner n).flights, ∃ t ∈ y.tickets, t.runner = n ∧ f.token = t.token
  /-- A runner that runs is registered for its document. -/
  lookup_of_running : ∀ t ∈ y.tickets, (y.server.runner t.runner).running = true →
    y.server.registered.lookup t.documentId = some t.runner

/-- The runner has a request in flight. -/
def Serves (y : Session) (n : Nat) : Prop := ∃ f ∈ (y.server.runner n).flights, f.abandoned = false

/-- Each registered runner has a request in flight. -/
def Needed (y : Session) : Prop := ∀ d n, (d, n) ∈ y.server.registered → y.Serves n

/-- A runner that runs has a request in flight. -/
theorem Tracked.serves_of_running (h : y.Tracked) {n : Nat} (hr : (y.server.runner n).running = true) :
    y.Serves n := by
  obtain ⟨token, ht⟩ := Runner.running_iff.mp hr
  obtain ⟨f, hf, -, -, ha⟩ := (h.owned n).exists_current ht
  exact ⟨f, hf, ha⟩

/-- The runner of a ticket that is registered at all is registered for the ticket's document. -/
theorem Tracked.eq_documentId (h : y.Tracked) {t : Ticket} (ht : t ∈ y.tickets) {d : String}
    (hd : (d, t.runner) ∈ y.server.registered) : d = t.documentId := by
  obtain ⟨u, hu, rfl, hut⟩ := h.registered_ticket d _ hd
  exact h.documentId_eq u hu t ht hut

/-! ### Changing one runner -/

section Update

variable {n : Nat} {g : Runner → Runner} {cancels : Nat → Prop}

theorem Tracked.update (h : y.Tracked) (hn : n < y.server.runners.length)
    (howned : (g (y.server.runner n)).Owned)
    (hg : (g (y.server.runner n)).Follows (y.server.runner n) cancels) :
    Tracked ⟨y.server.update n g, y.tickets⟩ := by
  have hrunner (m : Nat) := Server.runner_update (m := m) (g := g) hn
  have hfollows (m : Nat) : ((y.server.update n g).runner m).Owned ∧
      ((y.server.update n g).runner m).Follows (y.server.runner m) cancels := by
    rw [hrunner]
    split
    · next hm =>
      subst hm
      exact ⟨howned, hg⟩
    · exact ⟨h.owned m, Runner.follows_refl _ _⟩
  refine {
    owned := fun m => (hfollows m).1
    registered_nodup := h.registered_nodup
    registered_ticket := h.registered_ticket
    ticket_lt := fun t ht => ?ticket_lt
    ticket_eq := h.ticket_eq
    documentId_eq := h.documentId_eq
    exists_ticket := fun m f' hf' => ?exists_ticket
    lookup_of_running := fun t ht hr => h.lookup_of_running t ht ((hfollows _).2.running hr) }
  case ticket_lt =>
    obtain ⟨h₁, h₂⟩ := h.ticket_lt t ht
    exact ⟨by simpa using h₁, (hfollows _).2.started_eq ▸ h₂⟩
  case exists_ticket =>
    obtain ⟨f, hf, hff', -⟩ := (hfollows m).2.flight f' hf'
    rw [← hff']
    exact h.exists_ticket m f hf

/-- A runner's request is in flight after the change of another runner. -/
theorem serves_update_of_ne (hn : n < y.server.runners.length) {m : Nat} (hm : m ≠ n)
    (h : y.Serves m) : Serves ⟨y.server.update n g, y.tickets⟩ m := by
  unfold Serves
  rwa [Server.runner_update hn, if_neg hm]

theorem Needed.update (h : y.Needed) (hn : n < y.server.runners.length)
    (hg : (g (y.server.runner n)).KeepsRequest (y.server.runner n)) :
    Needed ⟨y.server.update n g, y.tickets⟩ := by
  intro d m hm
  by_cases hmn : m = n
  · subst hmn
    unfold Serves
    rw [Server.runner_update hn, if_pos rfl]
    exact hg (h d m hm)
  · exact serves_update_of_ne hn hmn (h d m hm)

end Update

/-! ### Giving up a runner -/

theorem Tracked.giveUp (h : y.Tracked) (documentId : String) (n : Nat) :
    Tracked ⟨y.server.giveUp documentId n, y.tickets⟩ := by
  rcases y.server.giveUp_cases documentId n with ⟨hs, hrunning, hlookup⟩ | ⟨hs, -⟩
  · rw [hs]
    have hsub : (y.server.registered.filter (·.1 ≠ documentId)).Sublist y.server.registered :=
      List.filter_sublist
    exact { h with
      registered_nodup := h.registered_nodup.sublist (hsub.map _)
      registered_ticket := fun d m hm => h.registered_ticket d m (hsub.subset hm)
      lookup_of_running := fun t ht hr => by
        have ht' := h.lookup_of_running t ht hr
        have hne : t.documentId ≠ documentId := by
          rintro rfl
          rw [hlookup, Option.some.injEq] at ht'
          rw [ht'] at hrunning
          exact Bool.false_ne_true (hrunning.symm.trans hr)
        rwa [lookup_filter_ne hne] }
  · rwa [hs]

/-- What is given up is what has no request in flight any more. -/
theorem Tracked.needed_giveUp (h : y.Tracked) {t : Ticket} (ht : t ∈ y.tickets)
    (hothers : ∀ d n, (d, n) ∈ y.server.registered → n ≠ t.runner → y.Serves n) :
    Needed ⟨y.server.giveUp t.documentId t.runner, y.tickets⟩ := by
  rcases y.server.giveUp_cases t.documentId t.runner with ⟨hs, -, -⟩ | ⟨hs, hrunning⟩
  · rw [hs]
    intro d n hn
    obtain ⟨hn, hd⟩ := List.mem_filter.mp hn
    refine hothers d n hn fun heq => ?_
    subst heq
    simp [h.eq_documentId ht hn] at hd
  · rw [hs]
    intro d n hn
    by_cases heq : n = t.runner
    · subst heq
      have hlookup := lookup_of_mem h.registered_nodup (h.eq_documentId ht hn ▸ hn)
      exact h.serves_of_running (hrunning.resolve_right (not_not.mpr hlookup))
    · exact hothers d n hn heq

/-! ### Starting a pass -/

/-- What is known of a server when a runner has been claimed on it for a document. -/
structure Claimed (y : Session) (documentId : String) (n : Nat) (c : Server) : Prop where
  lt_length : n < c.runners.length
  length_le : y.server.runners.length ≤ c.runners.length
  runner_eq : ∀ m, c.runner m = y.server.runner m
  registered_nodup : (c.registered.map (·.1)).Nodup
  lookup_eq : c.registered.lookup documentId = some n
  mem_or : ∀ d m, (d, m) ∈ c.registered → (d, m) ∈ y.server.registered ∨ d = documentId ∧ m = n
  lookup_mono : ∀ {d m}, y.server.registered.lookup d = some m → c.registered.lookup d = some m
  documentId_eq : ∀ t ∈ y.tickets, t.runner = n → t.documentId = documentId

theorem Tracked.claim (h : y.Tracked) {documentId : String} {n : Nat} {c : Server}
    (hc : y.server.claim documentId = (n, c)) : y.Claimed documentId n c := by
  unfold Server.claim at hc
  cases hlookup : y.server.registered.lookup documentId with
  | some m =>
    simp only [hlookup, Prod.mk.injEq] at hc
    obtain ⟨rfl, rfl⟩ := hc
    have hmem := mem_of_lookup hlookup
    obtain ⟨t, ht, -, rfl⟩ := h.registered_ticket _ _ hmem
    exact {
      lt_length := (h.ticket_lt t ht).1
      length_le := Nat.le_refl _
      runner_eq := fun _ => rfl
      registered_nodup := h.registered_nodup
      lookup_eq := hlookup
      mem_or := fun _ _ hm => .inl hm
      lookup_mono := id
      documentId_eq := fun u hu hut => (h.eq_documentId hu (hut ▸ hmem)).symm }
  | none =>
    simp only [hlookup, Prod.mk.injEq] at hc
    obtain ⟨rfl, rfl⟩ := hc
    have hfresh : documentId ∉ y.server.registered.map (·.1) := fun hmem => by
      obtain ⟨p, hp, rfl⟩ := List.mem_map.mp hmem
      obtain ⟨m, hm⟩ := exists_lookup_of_mem hp
      rw [hlookup] at hm
      cases hm
    refine {
      lt_length := by simp
      length_le := by simp
      runner_eq := fun m => ?runner_eq
      registered_nodup := ?registered_nodup
      lookup_eq := by simp [List.lookup_append, hlookup]
      mem_or := fun d m hm => by simpa using hm
      lookup_mono := fun hd => by simp [List.lookup_append, hd]
      documentId_eq := fun t ht htn => absurd (h.ticket_lt t ht).1 (by omega) }
    case runner_eq =>
      -- the new runner is what a number without a runner stands for
      simp only [Server.runner, List.getD_eq_getElem?_getD, List.getElem?_append]
      split
      · rfl
      · next hle =>
        rw [List.getElem?_eq_none (Nat.not_lt.mp hle), List.getElem?_singleton]
        split <;> rfl
    case registered_nodup =>
      rw [List.map_append]
      refine List.nodup_append.mpr ⟨h.registered_nodup, List.nodup_singleton _, ?_⟩
      rintro d hd d' hd' rfl
      rw [List.mem_singleton.mp hd'] at hd
      exact hfresh hd

section Start

variable {documentId : String} {n : Nat} {c : Server} {t : Ticket} (hc : y.Claimed documentId n c)
include hc

/-- The runners after the start. -/
theorem Claimed.runner_start (request : Request) (m : Nat) : (c.update n (·.start request)).runner m =
    if m = n then (y.server.runner n).start request else y.server.runner m := by
  rw [Server.runner_update hc.lt_length, hc.runner_eq, hc.runner_eq]

/-- The ticket of the start is for another pass than every ticket before, and for the same document if for the
same runner. -/
theorem Claimed.of_mem_tickets (h : y.Tracked) (hd : t.documentId = documentId) (hn : t.runner = n)
    (htoken : t.token = (c.runner n).started) {u : Ticket} (hu : u ∈ y.tickets)
    (hut : u.runner = t.runner) : u.token ≠ t.token ∧ u.documentId = t.documentId := by
  have hlt := (h.ticket_lt u hu).2
  rw [hut, hn, ← hc.runner_eq] at hlt
  exact ⟨by omega, (hc.documentId_eq u hu (hut.trans hn)).trans hd.symm⟩

/-- Each pass in flight after the start has a ticket. -/
theorem Claimed.exists_ticket (h : y.Tracked) (hn : t.runner = n)
    (htoken : t.token = (c.runner n).started) {request : Request} {m : Nat} {f : Flight}
    (hf : f ∈ ((c.update n (·.start request)).runner m).flights) :
    ∃ u ∈ y.tickets ++ [t], u.runner = m ∧ f.token = u.token := by
  have hkeep {x : Flight} (hx : x ∈ (y.server.runner m).flights) :
      ∃ u ∈ y.tickets ++ [t], u.runner = m ∧ x.token = u.token := by
    obtain ⟨u, hu, hum, hxu⟩ := h.exists_ticket m x hx
    exact ⟨u, List.mem_append_left _ hu, hum, hxu⟩
  rw [hc.runner_start] at hf
  split at hf
  · next hmn =>
    subst hmn
    rcases Runner.exists_or_of_mem_start hf with ⟨x, hx, hxf⟩ | rfl
    · exact hxf ▸ hkeep hx
    · rw [hc.runner_eq] at htoken
      exact ⟨t, List.mem_append_right _ (List.mem_singleton_self _), hn, htoken.symm⟩
  · exact hkeep hf

/-- A runner that runs after the start is registered for its document. -/
theorem Claimed.lookup_of_running (h : y.Tracked) (hd : t.documentId = documentId) (hn : t.runner = n)
    {request : Request} {u : Ticket} (hu : u ∈ y.tickets ++ [t])
    (hr : ((c.update n (·.start request)).runner u.runner).running = true) :
    c.registered.lookup u.documentId = some u.runner := by
  have hmem : u ∈ y.tickets ∨ u = t := by simpa using hu
  by_cases hun : u.runner = n
  · have hud : u.documentId = documentId := by
      rcases hmem with hu | rfl
      · exact hc.documentId_eq u hu hun
      · exact hd
    rw [hud, hun]
    exact hc.lookup_eq
  · rw [hc.runner_start, if_neg hun] at hr
    have hu := hmem.resolve_right fun h => hun (h ▸ hn)
    exact hc.lookup_mono (h.lookup_of_running u hu hr)

theorem Tracked.start (h : y.Tracked) (hd : t.documentId = documentId) (hn : t.runner = n)
    (htoken : t.token = (c.runner n).started) (request : Request) :
    Tracked ⟨c.update n (·.start request), y.tickets ++ [t]⟩ := by
  have hrunner (m : Nat) := hc.runner_start request m
  have hold {u : Ticket} := hc.of_mem_tickets h hd hn htoken (u := u)
  have hmem {u : Ticket} : u ∈ y.tickets ++ [t] ↔ u ∈ y.tickets ∨ u = t := by simp
  refine {
    owned := fun m => ?owned
    registered_nodup := hc.registered_nodup
    registered_ticket := fun d m hm => ?registered_ticket
    ticket_lt := fun u hu => ?ticket_lt
    ticket_eq := fun u hu v hv huv htok => ?ticket_eq
    documentId_eq := fun u hu v hv huv => ?documentId_eq
    exists_ticket := fun m f hf => hc.exists_ticket h hn htoken hf
    lookup_of_running := fun u hu hr => hc.lookup_of_running h hd hn hu hr }
  case owned =>
    simp only [hrunner]
    split
    · exact (h.owned n).start request
    · exact h.owned m
  case registered_ticket =>
    rcases hc.mem_or d m hm with hm | ⟨rfl, rfl⟩
    · obtain ⟨u, hu, hud, hum⟩ := h.registered_ticket d m hm
      exact ⟨u, hmem.mpr (.inl hu), hud, hum⟩
    · exact ⟨t, hmem.mpr (.inr rfl), hd, hn⟩
  case ticket_lt =>
    simp only [hrunner, Server.length_runners_update]
    rcases hmem.mp hu with hu | rfl
    · obtain ⟨h₁, h₂⟩ := h.ticket_lt u hu
      refine ⟨Nat.lt_of_lt_of_le h₁ hc.length_le, ?_⟩
      split
      · next hun =>
        rw [Runner.started_start, ← hun]
        omega
      · exact h₂
    · rw [if_pos hn, Runner.started_start, htoken, hc.runner_eq]
      exact ⟨hn ▸ hc.lt_length, Nat.lt_succ_self _⟩
  case ticket_eq =>
    rcases hmem.mp hu with hu' | rfl <;> rcases hmem.mp hv with hv' | rfl
    · exact h.ticket_eq u hu' v hv' huv htok
    · exact absurd htok (hold hu' huv).1
    · exact absurd htok.symm (hold hv' huv.symm).1
    · rfl
  case documentId_eq =>
    rcases hmem.mp hu with hu' | rfl <;> rcases hmem.mp hv with hv' | rfl
    · exact h.documentId_eq u hu' v hv' huv
    · exact (hold hu' huv).2
    · exact (hold hv' huv.symm).2.symm
    · rfl

theorem Needed.start (h : y.Needed) (t : Ticket) (request : Request) :
    Needed ⟨c.update n (·.start request), y.tickets ++ [t]⟩ := by
  intro d m hm
  unfold Serves
  rw [hc.runner_start]
  split
  · exact ⟨_, Runner.mem_start.mpr (.inr rfl), rfl⟩
  · next hmn =>
    rcases hc.mem_or d m hm with hm | ⟨-, hm⟩
    · exact h d m hm
    · exact absurd hm hmn

end Start

/-! ### Steps -/

/-- Progress of a worker keeps what is known. -/
theorem Tracked.progress (h : y.Tracked) (hneeded : y.Needed) {t : Ticket} (ht : t ∈ y.tickets)
    {g : Flight → Flight} (hg : Flight.IsProgress g) :
    Tracked ⟨y.server.update t.runner (·.update t.token g), y.tickets⟩ ∧
      Needed ⟨y.server.update t.runner (·.update t.token g), y.tickets⟩ := by
  have hlt := (h.ticket_lt t ht).1
  exact ⟨h.update hlt ((h.owned _).progress hg _) (Runner.follows_progress hg _ _ fun _ => False),
    hneeded.update hlt (Runner.keepsRequest_progress hg _ _)⟩

/-- Cancelling the pass of a document keeps what is known. -/
theorem Tracked.cancel (h : y.Tracked) (hneeded : y.Needed) (documentId : String) :
    Tracked ⟨(y.server.cancel documentId).2, y.tickets⟩ ∧
      Needed ⟨(y.server.cancel documentId).2, y.tickets⟩ := by
  rcases y.server.cancel_cases documentId with ⟨-, hs⟩ | ⟨n, hlookup, hs⟩
  · rw [hs]
    exact ⟨h, hneeded⟩
  · rw [hs]
    obtain ⟨t, ht, -, rfl⟩ := h.registered_ticket documentId n (mem_of_lookup hlookup)
    have hlt := (h.ticket_lt t ht).1
    exact ⟨h.update hlt ((h.owned _).cancel _) (Runner.follows_cancel _ _),
      hneeded.update hlt (Runner.keepsRequest_cancel _ _)⟩

/-- The end of a request, after which its runner is given up, keeps what is known. -/
theorem Tracked.leave (h : y.Tracked) (hneeded : y.Needed) {t : Ticket} (ht : t ∈ y.tickets)
    {g : Runner → Runner} {cancels : Nat → Prop} (howned : (g (y.server.runner t.runner)).Owned)
    (hg : (g (y.server.runner t.runner)).Follows (y.server.runner t.runner) cancels) :
    Tracked ⟨(y.server.update t.runner g).giveUp t.documentId t.runner, y.tickets⟩ ∧
      Needed ⟨(y.server.update t.runner g).giveUp t.documentId t.runner, y.tickets⟩ := by
  have hlt := (h.ticket_lt t ht).1
  have hupdate := h.update hlt howned hg
  exact ⟨hupdate.giveUp _ _, hupdate.needed_giveUp ht fun d n hn hne =>
    serves_update_of_ne hlt hne (hneeded d n hn)⟩

/-- What is known of a session, and that each registered runner has a request in flight, is kept by whatever
happens. -/
theorem Step.keeps [Json5Decoder] {e : Happening} (hstep : Step y e y') (h : y.Tracked) (hneeded : y.Needed) :
    y'.Tracked ∧ y'.Needed := by
  cases hstep with
  | start hc =>
    obtain ⟨q, -, hs⟩ := Server.accept_eq_ok hc
    obtain ⟨n, c, request, hclaim, hd, hn, htoken, rfl⟩ := Server.start_eq_ok hs
    have hclaimed := h.claim hclaim
    exact ⟨h.start hclaimed hd hn htoken request, hneeded.start hclaimed _ request⟩
  | answer hc =>
    rcases Server.accept_eq_error hc with rfl | ⟨d, -, rfl⟩
    · exact ⟨h, hneeded⟩
    · exact h.cancel hneeded d
  | work ht => exact h.progress hneeded ht Flight.isProgress_work
  | drain ht => exact h.progress hneeded ht Flight.isProgress_drain
  | resume ht hr =>
    rw [Server.resume_eq_some hr]
    exact h.leave hneeded ht ((h.owned _).land_release _)
      (Runner.follows_land_release _ _ fun _ => False)
  | abort hf ha =>
    exact h.leave hneeded hf.1 ((h.owned _).abort _) (Runner.follows_abort _ _)
  | @reap t ht =>
    have hlt := (h.ticket_lt t ht).1
    exact ⟨h.update hlt ((h.owned _).reap t.token) (Runner.follows_reap (h.owned _) _ fun _ => False),
      hneeded.update hlt (Runner.keepsRequest_reap (h.owned _) _)⟩

/-- In every session that can be reached, all this is known. -/
theorem Reachable.tracked [Json5Decoder] (h : Reachable y) : y.Tracked ∧ y.Needed := by
  induction h with
  | init parser output =>
    refine ⟨{
      owned := fun _ => Runner.owned_empty
      registered_nodup := List.nodup_nil
      registered_ticket := fun _ _ h => nomatch h
      ticket_lt := fun _ h => nomatch h
      ticket_eq := fun _ h => nomatch h
      documentId_eq := fun _ h => nomatch h
      exists_ticket := fun _ _ h => nomatch h
      lookup_of_running := fun _ h => nomatch h }, fun _ _ h => nomatch h⟩
  | step _ hstep ih => exact hstep.keeps ih.1 ih.2

/-! ### What cancels a pass -/

section Cancelling

variable {t u : Ticket} {f' : Flight}

/-- A pass that is in flight after the change of a ticket's runner was so before, and is cancelled only if it is
one of those of this runner that may be. -/
theorem Tracked.flight_of_update (h : y.Tracked) (hu : u ∈ y.tickets) {g : Runner → Runner}
    {cancels : Nat → Prop}
    (hg : (g (y.server.runner u.runner)).Follows (y.server.runner u.runner) cancels) (ht : t ∈ y.tickets)
    (hmem : f' ∈ ((y.server.update u.runner g).runner t.runner).flights) (htoken : f'.token = t.token) :
    ∃ f, y.InFlight t f ∧ (f'.signal = f.signal ∨ t.runner = u.runner ∧ cancels t.token) := by
  rw [Server.runner_update (h.ticket_lt u hu).1] at hmem
  split at hmem
  · next hrunner =>
    rw [← hrunner] at hmem hg
    obtain ⟨f, hf, hff', hsignal⟩ := hg.flight f' hmem
    have hft := hff'.trans htoken
    exact ⟨f, ⟨ht, hf, hft⟩, hsignal.imp_right fun hcancels => ⟨hrunner, hft ▸ hcancels⟩⟩
  · exact ⟨f', ⟨ht, hmem, htoken⟩, .inl rfl⟩

/-- The same for a change that cancels nothing. -/
theorem Tracked.flight_of_quiet (h : y.Tracked) (hu : u ∈ y.tickets) {g : Runner → Runner}
    (hg : (g (y.server.runner u.runner)).Follows (y.server.runner u.runner) fun _ => False)
    (ht : t ∈ y.tickets) (hmem : f' ∈ ((y.server.update u.runner g).runner t.runner).flights)
    (htoken : f'.token = t.token) : ∃ f, y.InFlight t f ∧ f'.signal = f.signal := by
  obtain ⟨f, hf, hsignal⟩ := h.flight_of_update hu hg ht hmem htoken
  exact ⟨f, hf, hsignal.resolve_right And.right⟩

/-- A pass that is in flight after a start is the one that was started, or was in flight before; then it is not
touched unless it is for the same document. -/
theorem Claimed.flight_of_start {documentId : String} {n : Nat} {c : Server} {request : Request}
    (hc : y.Claimed documentId n c) (h : y.Tracked) (hn : u.runner = n)
    (hstarted : u.token = (c.runner n).started)
    (hf' : InFlight ⟨c.update n (·.start request), y.tickets ++ [u]⟩ t f') :
    f'.signal = none ∨ ∃ f, y.InFlight t f ∧ (f'.signal = f.signal ∨ documentId = t.documentId) := by
  obtain ⟨ht, hmem, htoken⟩ := hf'
  -- the new ticket is for no pass that was in flight before
  have hold {f : Flight} (hf : f ∈ (y.server.runner t.runner).flights) (hft : f.token = t.token) :
      t ∈ y.tickets := by
    refine (List.mem_append.mp ht).resolve_right fun hnew => ?_
    rw [List.mem_singleton.mp hnew] at hf hft
    have hlt := (h.owned _).token_lt f hf
    rw [hc.runner_eq, ← hn] at hstarted
    omega
  rw [hc.runner_start] at hmem
  split at hmem
  · next htn =>
    subst htn
    rcases Runner.exists_or_of_mem_start hmem with ⟨f, hf, hff'⟩ | rfl
    · have hft := hff'.trans htoken
      have htold := hold hf hft
      exact .inr ⟨f, ⟨htold, hf, hft⟩, .inr (hc.documentId_eq t htold rfl).symm⟩
    · exact .inl rfl
  · exact .inr ⟨f', ⟨hold hmem htoken, hmem, htoken⟩, .inl rfl⟩

/-- A pass that is in flight after a step has been started by it, or was in flight before. Then it is cancelled
only by a request for its document, by a call to cancel the document's pass, or because its caller has gone
away. -/
theorem Step.flight [Json5Decoder] {e : Happening} (hstep : Step y e y') (h : y.Tracked) (hf' : y'.InFlight t f') :
    f'.signal = none ∨ ∃ f, y.InFlight t f ∧ (f'.signal = f.signal ∨ e.Cancels t) := by
  have quiet (hbefore : ∃ f, y.InFlight t f ∧ f'.signal = f.signal) :
      f'.signal = none ∨ ∃ f, y.InFlight t f ∧ (f'.signal = f.signal ∨ e.Cancels t) :=
    .inr (hbefore.imp fun _ hf => ⟨hf.1, .inl hf.2⟩)
  cases hstep with
  | start hc =>
    obtain ⟨q, rfl, hs⟩ := Server.accept_eq_ok hc
    obtain ⟨n, c, request, hclaim, -, hn, hstarted, rfl⟩ := Server.start_eq_ok hs
    exact (h.claim hclaim).flight_of_start h hn hstarted hf'
  | answer hc =>
    rcases Server.accept_eq_error hc with rfl | ⟨d, rfl, rfl⟩
    · exact quiet ⟨f', hf', rfl⟩
    · rcases y.server.cancel_cases d with ⟨-, hs⟩ | ⟨n, hlookup, hs⟩
      · rw [hs] at hf'
        exact quiet ⟨f', hf', rfl⟩
      · rw [hs] at hf'
        obtain ⟨ht, hmem, htoken⟩ := hf'
        have hregistered := mem_of_lookup hlookup
        obtain ⟨u, hu, -, rfl⟩ := h.registered_ticket d n hregistered
        obtain ⟨f, hf, hsignal⟩ := h.flight_of_update hu (Runner.follows_cancel _ _) ht hmem htoken
        exact .inr ⟨f, hf, hsignal.imp_right fun ⟨htu, _⟩ => h.eq_documentId ht (htu ▸ hregistered)⟩
  | work hu =>
    obtain ⟨ht, hmem, htoken⟩ := hf'
    exact quiet (h.flight_of_quiet hu (Runner.follows_progress Flight.isProgress_work _ _ _) ht hmem htoken)
  | drain hu =>
    obtain ⟨ht, hmem, htoken⟩ := hf'
    exact quiet (h.flight_of_quiet hu (Runner.follows_progress Flight.isProgress_drain _ _ _) ht hmem htoken)
  | resume hu hr =>
    obtain ⟨ht, hmem, htoken⟩ := hf'
    rw [Server.resume_eq_some hr, Server.runner_giveUp] at hmem
    exact quiet (h.flight_of_quiet hu (Runner.follows_land_release _ _ _) ht hmem htoken)
  | abort hu ha =>
    obtain ⟨ht, hmem, htoken⟩ := hf'
    rw [Server.abort, Server.runner_giveUp] at hmem
    obtain ⟨f, hf, hsignal⟩ := h.flight_of_update hu.1 (Runner.follows_abort _ _) ht hmem htoken
    exact .inr ⟨f, hf, hsignal.imp_right fun ⟨hrunner, htoken⟩ =>
      (h.ticket_eq t ht _ hu.1 hrunner htoken).symm⟩
  | reap hu =>
    obtain ⟨ht, hmem, htoken⟩ := hf'
    exact quiet (h.flight_of_quiet hu (Runner.follows_reap (h.owned _) _ _) ht hmem htoken)

end Cancelling

/-! ### Documents with a live pass -/

/-- A pass that is not cancelled has the token that the runner of its document holds. -/
theorem Tracked.registered_of_live (h : y.Tracked) {t : Ticket} {f : Flight} (hf : y.InFlight t f)
    (hlive : f.signal = none) : y.server.registered.lookup t.documentId = some t.runner ∧
      (y.server.runner t.runner).current = some t.token := by
  have hcurrent := (h.owned _).current_eq f hf.2.1 hlive
  rw [hf.2.2] at hcurrent
  exact ⟨h.lookup_of_running t hf.1 (Runner.running_iff.mpr ⟨_, hcurrent⟩), hcurrent⟩

/-- A document has a live pass just if it has a runner that runs. -/
theorem Tracked.live_iff (h : y.Tracked) {documentId : String} : y.Live documentId ↔
    ∃ n, y.server.registered.lookup documentId = some n ∧ (y.server.runner n).running = true := by
  constructor
  · rintro ⟨t, f, hf, rfl, hlive⟩
    obtain ⟨hlookup, hcurrent⟩ := h.registered_of_live hf hlive
    exact ⟨t.runner, hlookup, Runner.running_iff.mpr ⟨_, hcurrent⟩⟩
  · rintro ⟨n, hlookup, hrunning⟩
    obtain ⟨token, hcurrent⟩ := Runner.running_iff.mp hrunning
    obtain ⟨f, hf, -, hlive, -⟩ := (h.owned n).exists_current hcurrent
    obtain ⟨t, ht, rfl, hft⟩ := h.exists_ticket n f hf
    exact ⟨t, f, ⟨ht, hf, hft⟩, (h.eq_documentId ht (mem_of_lookup hlookup)).symm, hlive⟩

/-- **The life of runners on the server**, in every session that can be reached. Every pass in flight has a
ticket. A document has at most one pass in flight that is not cancelled, and the token of this pass is held by
the runner that is registered for the document. A document has a runner only while a request for it is in
flight, so that none is registered when there is no request. No pass is cancelled from its start on, and none
is cancelled but by a newer request for its document, by a call to cancel the document's pass, or because its
own caller goes away. A call to cancel a document's pass succeeds, and is answered so, just if the document has a
pass in flight that is not cancelled; otherwise the answer is that there is none. The server's health lists these
documents, each once, and counts them. -/
theorem lifecycle_of_reachable [Json5Decoder] (h : Reachable y) :
    (∀ n, ∀ f ∈ (y.server.runner n).flights, ∃ t, t.runner = n ∧ y.InFlight t f) ∧
    (∀ t u f g, y.InFlight t f → y.InFlight u g → t.documentId = u.documentId → f.signal = none →
      g.signal = none → t = u ∧ f = g) ∧
    (∀ t f, y.InFlight t f → f.signal = none →
      y.server.registered.lookup t.documentId = some t.runner ∧
        (y.server.runner t.runner).current = some t.token) ∧
    (∀ d n, (d, n) ∈ y.server.registered →
      ∃ t f, y.InFlight t f ∧ t.documentId = d ∧ f.abandoned = false) ∧
    ((∀ t f, y.InFlight t f → f.abandoned = true) → y.server.registered = []) ∧
    (∀ e y' t f', Step y e y' → y'.InFlight t f' → f'.signal ≠ none →
      ∃ f, y.InFlight t f ∧ (f.signal = none → e.Cancels t)) ∧
    (∀ d, ((y.server.cancel d).1 = true ↔ y.Live d) ∧ (d ∈ y.server.runningDocuments ↔ y.Live d)) ∧
    (∀ d, (y.Live d → (y.server.accept (.cancel d)).1 = .error (.json (.record
        [("success", .bool true), ("document_id", .str d), ("message", .str "Inference cancelled")]))) ∧
      (¬ y.Live d → (y.server.accept (.cancel d)).1 = .error (.json (.record
        [("success", .bool false), ("error", .str s!"No inference running for '{d}'")])))) ∧
    ∃ ds : List String, (y.server.accept .health).1 = .error (.json (.record
        [("status", .str "healthy"), ("running_passes", .int ds.length), ("documents", .arr (ds.map .str))])) ∧
      ds.Nodup ∧ ∀ d, d ∈ ds ↔ y.Live d := by
  obtain ⟨htracked, hneeded⟩ := h.tracked
  have hrequest : ∀ d n, (d, n) ∈ y.server.registered →
      ∃ t f, y.InFlight t f ∧ t.documentId = d ∧ f.abandoned = false := by
    intro d n hn
    obtain ⟨f, hf, ha⟩ := hneeded d n hn
    obtain ⟨t, ht, rfl, hft⟩ := htracked.exists_ticket n f hf
    exact ⟨t, f, ⟨ht, hf, hft⟩, (htracked.eq_documentId ht hn).symm, ha⟩
  have hcancel : ∀ d, (y.server.cancel d).1 = true ↔ y.Live d := by
    intro d
    rw [Server.cancel_eq_true_iff, htracked.live_iff]
  have hlisted : ∀ d, d ∈ y.server.runningDocuments ↔ y.Live d := by
    intro d
    rw [Server.mem_runningDocuments_iff, htracked.live_iff]
    refine exists_congr fun n => and_congr_left fun _ => ?_
    exact ⟨lookup_of_mem htracked.registered_nodup, mem_of_lookup⟩
  refine ⟨?tickets, ?unique, ?held, hrequest, ?none, ?cancels, fun d => ⟨hcancel d, hlisted d⟩, ?answers, ?health⟩
  case tickets =>
    intro n f hf
    obtain ⟨t, ht, rfl, hft⟩ := htracked.exists_ticket n f hf
    exact ⟨t, rfl, ht, hf, hft⟩
  case unique =>
    intro t u f g hf hg hdoc hflive hglive
    obtain ⟨hlookup, hcurrent⟩ := htracked.registered_of_live hf hflive
    obtain ⟨hlookup', hcurrent'⟩ := htracked.registered_of_live hg hglive
    rw [hdoc, hlookup', Option.some.injEq] at hlookup
    rw [← hlookup, hcurrent', Option.some.injEq] at hcurrent
    obtain rfl := htracked.ticket_eq t hf.1 u hg.1 hlookup.symm hcurrent.symm
    exact ⟨rfl, (htracked.owned _).eq_of_token hf.2.1 hg.2.1 (hf.2.2.trans hg.2.2.symm)⟩
  case held => exact fun t f hf hlive => htracked.registered_of_live hf hlive
  case none =>
    intro hnone
    refine List.eq_nil_iff_forall_not_mem.mpr fun ⟨d, n⟩ hn => ?_
    obtain ⟨t, f, hf, -, ha⟩ := hrequest d n hn
    rw [hnone t f hf] at ha
    cases ha
  case cancels =>
    intro e y' t f' hstep hf' hcut
    obtain ⟨f, hf, hsignal⟩ := (hstep.flight htracked hf').resolve_left hcut
    exact ⟨f, hf, fun hlive => hsignal.resolve_left fun hsame => hcut (hsame.trans hlive)⟩
  case answers =>
    intro d
    have hanswer : (y.server.accept (.cancel d)).1 =
        .error (Server.cancelAnswer d (y.server.cancel d).1) := rfl
    refine ⟨fun hlive => ?_, fun hlive => ?_⟩
    · rw [hanswer, (hcancel d).mpr hlive]
      rfl
    · have hdone : (y.server.cancel d).1 = false := Bool.eq_false_iff.mpr (mt (hcancel d).mp hlive)
      rw [hanswer, hdone]
      rfl
  case health =>
    exact ⟨y.server.runningDocuments, rfl, Server.nodup_runningDocuments htracked.registered_nodup, hlisted⟩

/-- Two requests for a document, of which the second supersedes the first, a call to cancel its pass, and the
end of the first request, by which the runner is given up though the second pass is still in flight. A third
request gets a new runner, whose token alone is that of a live pass. -/
theorem lifecycle_of_reachable_replaced :
    letI := Lenient.decoder
    let request : Request := { source := .text "[]", rootName := "Root" }
    let first : Flight :=
      { token := 0, request, signal := some (0, Runner.callerGone), abandoned := true }
    let second : Flight := { token := 1, request, signal := some (0, Runner.byCaller) }
    let third : Flight := { token := 0, request }
    let y : Session := {
      server := {
        runners := [{ started := 2, flights := [first, second] },
          { current := some 0, started := 1, flights := [third] }]
        registered := [("d", 1)] }
      tickets := [⟨"d", 0, 0, .source⟩, ⟨"d", 0, 1, .source⟩, ⟨"d", 1, 0, .source⟩] }
    Reachable y ∧ y.InFlight ⟨"d", 0, 1, .source⟩ second ∧
      (y.server.registered.lookup "d" = some 1 ∧ (y.server.runner 1).current = some 0) ∧
      (y.server.cancel "d").1 = true ∧ "d" ∈ y.server.runningDocuments ∧
      (y.server.accept (.cancel "d")).1 = .error (.json (.record
        [("success", .bool true), ("document_id", .str "d"), ("message", .str "Inference cancelled")])) := by
  generalize Lenient.decoder = json5
  intro request first second third y
  let inquiry : Inquiry := { product := .source, jsonText := "[]", typeName := "Root", documentId := "d" }
  let a : Ticket := ⟨"d", 0, 0, .source⟩
  let b : Ticket := ⟨"d", 0, 1, .source⟩
  let session (r : Runner) (tickets : List Ticket) : Session :=
    { server := { runners := [r], registered := [("d", 0)] }, tickets }
  let live (token : Nat) : Flight := { token, request }
  let superseded : Flight := { live 0 with signal := some (0, Runner.superseded) }
  let y₁ := session { current := some 0, started := 1, flights := [live 0] } [a]
  let y₂ := session { current := some 1, started := 2, flights := [superseded, live 1] } [a, b]
  let y₃ := session { started := 2, flights := [superseded, second] } [a, b]
  let y₄ : Session := { server := { runners := [{ started := 2, flights := [first, second] }] }, tickets := [a, b] }
  have e₁ : ({} : Server).accept (.infer inquiry) = (.ok a, y₁.server) := by
    dsimp only [inquiry, a, y₁, session, live, request]
    rfl
  have e₂ : y₁.server.accept (.infer inquiry) = (.ok b, y₂.server) := by
    dsimp only [inquiry, b, y₁, y₂, session, superseded, live, request]
    rfl
  have e₃ : y₂.server.accept (.cancel "d") = (.error (Server.cancelAnswer "d" true), y₃.server) := by
    dsimp only [y₂, y₃, session, superseded, second, live, request]
    rfl
  have e₄ : y₃.server.abort a = y₄.server := by
    dsimp only [a, y₃, y₄, session, superseded, first, second, live, request]
    rfl
  have e₅ : y₄.server.accept (.infer inquiry) = (.ok ⟨"d", 1, 0, .source⟩, y.server) := by
    dsimp only [inquiry, y₄, y, first, second, third, request]
    rfl
  have h₁ : Reachable y₁ := (Reachable.init {} {}).step (.start e₁)
  have h₂ : Reachable y₂ := h₁.step (.start e₂)
  have h₃ : Reachable y₃ := h₂.step (.answer e₃)
  have ha : y₃.InFlight a superseded := ⟨List.mem_cons_self .., List.mem_cons_self .., rfl⟩
  have h₄ : Reachable y₄ := by
    have := h₃.step (.abort ha rfl)
    rwa [e₄] at this
  have h : Reachable y := h₄.step (.start e₅)
  obtain ⟨-, -, hheld, -, -, -, hlisted, hanswers, -⟩ := lifecycle_of_reachable h
  have hthird : y.InFlight ⟨"d", 1, 0, .source⟩ third := ⟨by decide, List.mem_cons_self .., rfl⟩
  have hlive : y.Live "d" := ⟨_, third, hthird, rfl, rfl⟩
  refine ⟨h, ⟨by decide, ?_, rfl⟩, hheld _ third hthird rfl, (hlisted "d").1.mpr hlive,
    (hlisted "d").2.mpr hlive, (hanswers "d").1 hlive⟩
  exact List.mem_cons_of_mem _ (List.mem_singleton_self _)

end Session
end JsonShape
