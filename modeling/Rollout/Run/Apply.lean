import Rollout.Run.Etcd
import Rollout.Run.Gather
import Rollout.Run.Preflight
import Rollout.Run.Watchdog

/-!
# Applying configurations

Nodes are configured one at a time, in visiting order. A node is first asked what the configuration
would change. If it would change anything, the operator sees it and is asked, and only a yes sends the
same bytes for good, over the same connection. A changed node has to become stable before the next one
has its turn. The first error ends the run.
-/

namespace Rollout

/-- How a node says that a configuration changes nothing. -/
def noChanges : String := "\nNo changes."

def isNoOp (details : String) : Bool := noChanges.toList.isSuffixOf details.toList

structure ApplyOptions where
  dryRun : Bool := false
  confirm : Bool := true
  skipPostApplyChecks : Bool := false
  skipProblematic : Bool := false
  allowNotReady : Bool := false
  autoBootstrap : Bool := false
  deriving DecidableEq, Repr

inductive ApplyOutcome where
  | unchanged
  | changed
  | skipped
  deriving DecidableEq, Repr

structure ApplyReport where
  outcomes : List (String × ApplyOutcome)
  etcd : Option EtcdOutcome := none
  deriving DecidableEq, Repr

namespace ApplyReport

def changed (r : ApplyReport) : Nat := r.outcomes.countP (·.2 == .changed)
def skipped (r : ApplyReport) : Nat := r.outcomes.countP (·.2 == .skipped)

end ApplyReport

def ApplyOptions.policy (options : ApplyOptions) : Policy :=
  { Policy.apply with
    requireReady := !options.allowNotReady
    skipProblematic := options.skipProblematic }

namespace Work

variable {σ : Type}

/-- The configuration of a record; a record without one cannot be configured. -/
def configOf (o : Observation) : Work σ Bytes :=
  match o.config with
  | some config => return config
  | none => fail (.render s!"no configuration rendered for {o.host}")

/-- A connection the run cannot do without. -/
def connected (node : Node) : Work σ Client := do
  ofExcept (← connect node)

def sendConfig (client : Client) (data : Bytes) (dryRun : Bool) : Work σ ApplyReply := do
  match ← request client (.applyConfiguration data dryRun) with
  | .ok reply => return reply
  | .error e => fail (.apply client.node.host e)

def applyQuestion (host mode : String) : String :=
  s!"Do you want to apply the above changes to {host} (Mode: {mode})?"

/-- May the previewed change be made? Without confirmation it may. -/
def approved (host : String) (preview : ApplyReply) (options : ApplyOptions) : Work σ Bool := do
  if options.confirm then
    display preview.details
    ask (applyQuestion host preview.mode)
  else return true

/-- The turn of one node, up to the accepted change. -/
def applyNode (o : Observation) (options : ApplyOptions) : Work σ ApplyOutcome := do
  let config ← configOf o
  let client ← connected o.node
  let preview ← sendConfig client config true
  if isNoOp preview.details then return .unchanged
  if options.dryRun then
    display preview.details
    return .unchanged
  if ← approved o.host preview options then
    let _ ← sendConfig client config false
    return .changed
  else return .skipped

/-- The whole turn of one node: if `stabilize` says so, a changed node has to become stable. -/
def applyTurn (options : ApplyOptions) (stabilize : Bool) (o : Observation) : Work σ ApplyOutcome := do
  checkpoint
  let outcome ← applyNode o options
  if stabilize && !options.dryRun && outcome == .changed then waitStable o.node stableWindow
  return outcome

def applyNodes (options : ApplyOptions) (stabilize : Bool) :
    List Observation → Work σ (List (String × ApplyOutcome))
  | [] => return []
  | o :: rest => do
    let outcome ← applyTurn options stabilize o
    return (o.host, outcome) :: (← applyNodes options stabilize rest)

/-- Configures nodes that have passed the preflight, and starts etcd if that is asked for. -/
def applyEligible (options : ApplyOptions) (eligible : List Observation) : Work σ ApplyReport := do
  let stabilize := !options.skipPostApplyChecks && !allInMaintenance eligible
  let outcomes ← applyNodes options stabilize eligible
  if options.autoBootstrap && !options.dryRun then
    return { outcomes, etcd := some (← ensureEtcd (eligible.map (·.node))) }
  return { outcomes }

def apply (options : ApplyOptions) : Work σ ApplyReport := do
  applyEligible options (← ofExcept (options.policy.check (← gather)))

end Work
end Rollout
