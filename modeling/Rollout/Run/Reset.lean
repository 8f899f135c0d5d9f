import Rollout.Run.Gather

/-!
# Resetting

Every node of the run is either reset, left alone, or fails to reset, and is counted as such. A node
in maintenance has nothing to reset; a node that cannot be reached, or that the operator spares, is
skipped.
-/

namespace Rollout

/-- The partitions that hold a node's configuration and its data. -/
def resetPartitions : List String := ["STATE", "EPHEMERAL"]

structure ResetOptions where
  full : Bool := true
  graceful : Bool := false
  shutdown : Bool := false
  confirm : Bool := true
  deriving DecidableEq, Repr

/-- The request the options ask for: a full reset names no partition. -/
def ResetOptions.request (o : ResetOptions) : ResetRequest :=
  { graceful := o.graceful
    reboot := !o.shutdown
    partitions := if o.full then [] else resetPartitions.map (⟨·, true⟩) }

structure ResetTally where
  success : Nat := 0
  skipped : Nat := 0
  failed : Nat := 0
  deriving DecidableEq, Repr

namespace ResetTally

def total (t : ResetTally) : Nat := t.success + t.skipped + t.failed

end ResetTally

inductive ResetOutcome where
  | success
  | skipped
  | failed
  deriving DecidableEq, Repr

def ResetTally.count (t : ResetTally) : ResetOutcome → ResetTally
  | .success => { t with success := t.success + 1 }
  | .skipped => { t with skipped := t.skipped + 1 }
  | .failed => { t with failed := t.failed + 1 }

namespace Work

variable {σ : Type}

def resetQuestion (host : String) : String :=
  s!"Do you want to reset node {host}? This will wipe its configuration."

/-- The turn of one node. Only a question that cannot be asked fails it. -/
def resetNode (o : Observation) (options : ResetOptions) : Work σ ResetOutcome := do
  if o.stage == .maintenance then return .skipped
  if options.confirm then
    if !(← ask (resetQuestion o.host)) then return .skipped
  match ← connect o.node with
  | .error _ => return .skipped
  | .ok client =>
    match ← request client (.reset options.request) with
    | .ok () => return .success
    | .error _ => return .failed

def resetNodes (options : ResetOptions) (tally : ResetTally) :
    List Observation → Work σ ResetTally
  | [] => return tally
  | o :: rest => do
    checkpoint
    resetNodes options (tally.count (← resetNode o options)) rest

def reset (options : ResetOptions) : Work σ ResetTally := do
  resetNodes options {} (← gather)

end Work
end Rollout
