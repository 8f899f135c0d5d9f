import Rollout.Run.Work

/-!
# Retrying

Waiting for a machine is a sequence of attempts with pauses between them. An attempt succeeds, asks to
be repeated, or fails for good; a budget bounds the time of all attempts and, if it says so, of each.
A failure for good is never retried, and a reason to retry is reported only once the budget is used up.
-/

namespace Rollout

inductive Attempt (ε α : Type) where
  | success (value : α)
  /-- Expected for now: try again after a pause. -/
  | retry (reason : String)
  | fatal (error : ε)

structure Budget where
  /-- No attempt but the first starts this long after the start, or later. -/
  total : Duration
  /-- The pause between two attempts. -/
  interval : Duration
  /-- How long one attempt may take; one that takes longer asks to be repeated. -/
  attemptLimit : Option Duration := none
  deriving DecidableEq, Repr

inductive RetryError (ε : Type) where
  | exhausted (elapsed : Duration) (last : String)
  | fatal (error : ε)
  | cancelled

def RetryError.message {ε : Type} (wording : ε → String) : RetryError ε → String
  | exhausted elapsed last => s!"timeout after {elapsed.text}: {last}"
  | fatal error => wording error
  | cancelled => "operation cancelled"

/-- The error of a run whose retried step failed; `exhausted` says what a used-up budget means there. -/
def RetryError.toError (exhausted : String → Error) : RetryError Error → Error
  | .fatal error => error
  | .cancelled => .cancelled
  | .exhausted elapsed last =>
    exhausted (RetryError.message Error.message (.exhausted elapsed last))

/-- Why an attempt is repeated that its limit cut off. -/
def timeoutReason (limit : Duration) : String := s!"attempt timed out after {limit.text}"

variable {σ ε α : Type}

/-- One attempt under the budget's limit. -/
def Budget.attempt (b : Budget) (work : Work σ (Attempt ε α)) : Work σ (Attempt ε α) :=
  match b.attemptLimit with
  | none => work
  | some limit => do
    match ← Work.within limit work with
    | some outcome => return outcome
    | none => return .retry (timeoutReason limit)

/-- One attempt and, if it is to be repeated, the pause after it; nothing if another round follows. The
clock of the budget started at `started`. -/
def Budget.round (b : Budget) (work : Work σ (Attempt ε α)) (started : Instant) :
    Work σ (Option (Except (RetryError ε) α)) := do
  if ← Work.cancelled then return some (.error .cancelled)
  match ← b.attempt work with
  | .success value => return some (.ok value)
  | .fatal error => return some (.error (.fatal error))
  | .retry reason =>
    let elapsed := (← Work.clock) - started
    if b.total ≤ elapsed + b.interval then return some (.error (.exhausted elapsed reason))
    if ← Work.pause b.interval then return some (.error .cancelled)
    return none

/-- Repeats the work until it succeeds, fails for good, the budget is used up or the run is
cancelled. -/
def retry (b : Budget) (work : Work σ (Attempt ε α)) : Work σ (Except (RetryError ε) α) := do
  (b.round work (← Work.clock)).untilSome

/-- Repeats the work and fails the run unless it succeeds. -/
def retryOrFail (b : Budget) (work : Work σ (Attempt Error α)) (exhausted : String → Error) :
    Work σ α := do
  Work.ofExcept ((← retry b work).mapError (·.toError exhausted))

end Rollout
