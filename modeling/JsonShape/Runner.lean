import JsonShape.Inference

/-!
# Runners

A runner runs the passes of one document, one at a time: a pass that starts cancels the one before. Each
pass has a token, its number among the passes of the runner; the runner holds the token of the pass that
it would cancel. A pass is in flight from its start until its caller has its outcome or is gone; its
worker makes the checks one by one, and the signal is what the token says to the worker.
-/

namespace JsonShape

/-- A pass in flight. Its worker has made `made` checks. The caller of an abandoned pass is gone. -/
structure Flight where
  token : Nat
  request : Request
  made : Nat := 0
  signal : Signal := none
  abandoned : Bool := false

namespace Flight

/-- The pass with its token cancelled. -/
def cancel (f : Flight) (reason : String) : Flight :=
  { f with signal := Signal.cancel f.signal f.made (some reason) }

/-- The number of checks that the worker makes in all, as the signal stands. -/
def total [Json5Decoder] (f : Flight) : Nat := (f.request.run f.signal).2.checks

/-- Whether the worker has come to its end. -/
def ended [Json5Decoder] (f : Flight) : Bool := f.total ≤ f.made

/-- The pass after one more check of its worker. -/
def work [Json5Decoder] (f : Flight) : Flight := { f with made := min (f.made + 1) f.total }

/-- The pass after all checks of its worker. -/
def drain [Json5Decoder] (f : Flight) : Flight := { f with made := f.total }

/-- What the worker hands over at its end. -/
def result [Json5Decoder] (f : Flight) : Except Fault Outcome := (f.request.run f.signal).1

end Flight

/-- A runner: the token it holds, the number of passes started, and the passes in flight. -/
structure Runner where
  current : Option Nat := none
  started : Nat := 0
  flights : List Flight := []

namespace Runner

/-- Why a pass is cancelled by a newer one. -/
def superseded : String := "Superseded by a newer inference pass"

/-- Why a pass is cancelled at a caller's request that gives no reason. -/
def byCaller : String := "Cancelled by caller"

/-- Why a pass is cancelled when its own caller goes away. -/
def callerGone : String := "Caller was cancelled"

/-- Whether the runner holds a token. -/
def running (r : Runner) : Bool := r.current.isSome

/-- The pass in flight with a token. -/
def flight? (r : Runner) (token : Nat) : Option Flight := r.flights.find? (·.token = token)

/-- The runner with the pass of a token changed. -/
def update (r : Runner) (token : Nat) (f : Flight → Flight) : Runner :=
  { r with flights := r.flights.map fun x => if x.token = token then f x else x }

/-- Gives up the token, if the runner holds this one. -/
def release (r : Runner) (token : Nat) : Runner :=
  if r.current = some token then { r with current := none } else r

/-- Cancels the pass whose token the runner holds. Says whether there was one. -/
def cancel (r : Runner) (reason : String) : Bool × Runner :=
  match r.current with
  | none => (false, r)
  | some token => (true, { r.update token (·.cancel reason) with current := none })

/-- Starts a pass, which supersedes the one whose token the runner holds. -/
def start (r : Runner) (request : Request) : Runner :=
  let r := (r.cancel superseded).2
  { current := some r.started
    started := r.started + 1
    flights := r.flights ++ [{ token := r.started, request }] }

/-- One check of a worker. -/
def work [Json5Decoder] (r : Runner) (token : Nat) : Runner := r.update token Flight.work

/-- All checks of a worker. -/
def drain [Json5Decoder] (r : Runner) (token : Nat) : Runner := r.update token Flight.drain

/-- The runner without a pass. -/
def land (r : Runner) (token : Nat) : Runner :=
  { r with flights := r.flights.filter (·.token ≠ token) }

/-- Hands the result of a worker that has ended to the pass's caller. -/
def resume [Json5Decoder] (r : Runner) (token : Nat) : Option (Except Fault Outcome) × Runner :=
  match r.flight? token with
  | some f =>
    if f.ended && !f.abandoned then (some f.result, (r.land token).release token) else (none, r)
  | none => (none, r)

/-- Lets a worker come to its end and hands its result to the caller. -/
def finish [Json5Decoder] (r : Runner) (token : Nat) : Option (Except Fault Outcome) × Runner :=
  (r.drain token).resume token

/-- Takes the caller of a pass away. The worker is left behind with its token cancelled. -/
def abort (r : Runner) (token : Nat) : Runner :=
  (r.update token fun f => { f.cancel callerGone with abandoned := true }).release token

/-- Drops an abandoned pass whose worker has ended. -/
def reap [Json5Decoder] (r : Runner) (token : Nat) : Runner :=
  match r.flight? token with
  | some f => if f.ended && f.abandoned then r.land token else r
  | none => r

/-- Runs a pass from its start to its outcome. -/
def run [Json5Decoder] (r : Runner) (request : Request) : Option (Except Fault Outcome) × Runner :=
  (r.start request).finish r.started

end Runner
end JsonShape
