import Rollout.Run.Retry

/-!
# Scripted attempts

Rehearsing retries: each attempt of a script takes its time and then ends as written; the last one is
repeated. What comes back is the result, when each attempt began, and when all was over.
-/

namespace Rollout

structure ScriptedAttempt (ε α : Type) where
  after : Duration
  outcome : Attempt ε α

namespace ScriptedAttempt

variable {ε α : Type}

/-- The attempts that are left, and the start times of those made, the last one first. -/
abbrev Progress (ε α : Type) := List (ScriptedAttempt ε α) × List Instant

/-- A world in which no call is answered. -/
def silence (σ : Type) : Environment σ where
  serve s _ call :=
    { begun := s
      delay := none
      finish := fun s => (s, match call with
        | .connect _ => .error .cancelled
        | .render _ => .error .cancelled
        | .request _ _ => .error (.unavailable "")
        | .display _ => .ok ()
        | .ask _ => .error .cancelled) }

def next : Work (Progress ε α) (Attempt ε α) := do
  let now ← Work.clock
  let (left, starts) := (← get).state
  match left with
  | [] => throw .overdue
  | a :: rest =>
    modify fun w => { w with state := (if rest.isEmpty then [a] else rest, now :: starts) }
    Work.waitUntil (some (now + a.after))
    return a.outcome

/-- The outcome of retrying a script, the start times, and the end. -/
def rehearse (budget : Budget) (signal : Signal) (script : List (ScriptedAttempt ε α)) :
    Except Stop (Except (RetryError ε) α) × List Instant × Instant :=
  let setting : Setting (Progress ε α) :=
    { environment := silence _, cluster := ⟨"", "", none, []⟩, nodes := [], signal }
  let start : World (Progress ε α) := { state := (script, []) }
  let (result, world) := ((retry budget next).result? setting start).getD (.error .overdue, start)
  (result, world.state.2.reverse, world.now)

end ScriptedAttempt
end Rollout
