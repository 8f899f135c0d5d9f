import Rollout.Run.Retry

/-!
# The watchdog

A changed node counts as stable when it has been healthy for a whole window. The subscription to its
events is opened before its status is read, so no transition between the two is missed; whatever the
stream delivers from then on, also what was queued, is looked at. A healthy status and unrelated events
do not matter. Anything else ends the attempt, and the next starts afresh.
-/

namespace Rollout

/-- How long a node has to be healthy. -/
def stableWindow : Duration := .seconds 30

/-- Fifteen minutes in all, a second between attempts, and a minute more than the window for each. -/
def stabilizeBudget (window : Duration) : Budget :=
  { total := .seconds 900, interval := .seconds 1, attemptLimit := some (window + .seconds 60) }

/-- What the stream delivers and when, counted from `start`: nothing stands for its end. -/
def EventStream.timeline (stream : EventStream) (start : Instant) :
    List (Instant × Option (Except ApiError NodeEvent)) :=
  go start stream.events
where
  go (t : Instant) : List (Duration × Except ApiError NodeEvent) →
      List (Instant × Option (Except ApiError NodeEvent))
    | [] => if stream.closes then [(t, none)] else []
    | (gap, event) :: rest => (t + gap, some event) :: go (t + gap) rest

inductive Sight where
  | stable
  | cancelled
  | lost (reason : String)
  deriving DecidableEq, Repr

/-- Why an item of the stream ends the window, if it does. -/
def lost? : Option (Except ApiError NodeEvent) → Option String
  | none => some "event stream closed"
  | some (.error e) => some s!"event stream: {e.message}"
  | some (.ok (.status s)) => s.unhealthy?
  | some (.ok (.other _)) => none

/-- The end of the window `[start, stop]` and when it comes, if no item comes first; `raised` is when the
signal is raised. -/
def quietUntil (start stop : Instant) (raised : Option Instant) (favoured : Branch) : Instant × Sight :=
  match raised with
  | none => (stop, .stable)
  | some time =>
    let heard := max start time
    if heard < stop ∨ heard = stop ∧ favoured = .signal then (heard, .cancelled) else (stop, .stable)

/-- The end of the window `[start, stop]` and when it comes. Items from before the start are seen at the
start. Where the timer, the signal and an item are ready at the same instant the program takes them in an
arbitrary order, and goes on after a harmless item: `favours` says which comes first, each time it looks. -/
def watchWindow (start stop : Instant) (raised : Option Instant) (favours : Nat → Branch) :
    List (Instant × Option (Except ApiError NodeEvent)) → Instant × Sight
  | [] => quietUntil start stop raised (favours 0)
  | (time, item) :: rest =>
    let seen := max start time
    let quiet := quietUntil start stop raised (favours 0)
    if seen < quiet.1 ∨ seen = quiet.1 ∧ favours 0 = .item then
      match lost? item with
      | some reason => (seen, .lost reason)
      | none => watchWindow start stop raised (fun n => favours (n + 1)) rest
    else quiet

namespace Work

variable {σ : Type}

/-- Watches a stream, subscribed to at `subscribed`, for a window from now. -/
def watchFor (window : Duration) (subscribed : Instant) (stream : EventStream) :
    Work σ (Attempt Error Unit) := do
  let start ← clock
  let (time, sight) :=
    watchWindow start (start + window) (← raisedAt?) (← favours) (stream.timeline subscribed)
  waitUntil (some time)
  match sight with
  | .stable => return .success ()
  | .cancelled => return .fatal .cancelled
  | .lost reason => return .retry reason

/-- One attempt: connect, subscribe, read the status, then watch for a window. -/
def stableAttempt (node : Node) (window : Duration) : Work σ (Attempt Error Unit) := do
  match ← connect node with
  | .error e => return .retry e.message
  | .ok client =>
    match ← request client .watch with
    | .error e => return .retry s!"subscribe to events: {e.message}"
    | .ok stream =>
      let subscribed ← clock
      match ← request client .status with
      | .error e => return .retry s!"read machine status: {e.message}"
      | .ok status =>
        match status.unhealthy? with
        | some reason => return .retry reason
        | none => watchFor window subscribed stream

/-- Waits until the node has been healthy for a whole window. -/
def waitStable (node : Node) (window : Duration) : Work σ Unit :=
  retryOrFail (stabilizeBudget window) (stableAttempt node window) (.stabilize node.host)

end Work
end Rollout
