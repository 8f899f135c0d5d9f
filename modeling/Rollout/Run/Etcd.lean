import Rollout.Run.Observation
import Rollout.Run.Retry

/-!
# Starting etcd

A cluster's etcd is started once, on one node: the first control-plane node of the run. An attempt
reads the state of the service first. Only a service that is preparing is told to start; one that is
running counts as started when it has members. Everything else is a reason to try again.
-/

namespace Rollout

inductive EtcdOutcome where
  | initiated
  | alreadyBootstrapped
  | noControlPlane
  deriving DecidableEq, Repr

/-- Ten minutes in all, five seconds between attempts, fifteen seconds for each. -/
def etcdBudget : Budget :=
  { total := .seconds 600, interval := .seconds 5, attemptLimit := some (.seconds 15) }

/-- The node etcd is started on. -/
def seed? (nodes : List Node) : Option Node := nodes.find? (·.isControlPlane)

namespace Work

variable {σ : Type}

/-- How many members etcd has; none if that cannot be read. -/
def etcdMembers (client : Client) : Work σ Nat := do
  match ← request client .etcdMembers with
  | .ok n => return n
  | .error _ => return 0

def etcdAttempt (seed : Node) : Work σ (Attempt Error EtcdOutcome) := do
  match ← connect seed with
  | .error e => return .retry e.message
  | .ok client =>
    match ← request client (.serviceState "etcd") with
    | .error e => return .retry s!"read etcd state: {e.message}"
    | .ok none => return .retry "etcd service not found"
    | .ok (some state) =>
      let notReady : Attempt Error EtcdOutcome :=
        .retry s!"etcd not ready for bootstrap, state: {state}"
      if Text.sameUpToCase state "preparing" then
        match ← request client .bootstrap with
        | .ok () => return .success .initiated
        | .error e => return .retry s!"bootstrap rpc: {e.message}"
      else if Text.sameUpToCase state "running" then
        if 0 < (← etcdMembers client) then return .success .alreadyBootstrapped
        return notReady
      else return notReady

/-- Makes sure etcd is started, if there is a node to start it on. -/
def ensureEtcd (nodes : List Node) : Work σ EtcdOutcome := do
  match seed? nodes with
  | none => return .noControlPlane
  | some seed => retryOrFail etcdBudget (etcdAttempt seed) .bootstrap

end Work
end Rollout
