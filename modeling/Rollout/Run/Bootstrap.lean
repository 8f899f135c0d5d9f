import Rollout.Run.Apply

/-!
# Bootstrapping a fresh cluster

All nodes, which have to be in maintenance, are configured; then etcd is started on the first node;
then every node has to become stable. The first node has to be a control-plane node, or nothing is
done at all.
-/

namespace Rollout

structure BootstrapReport where
  outcomes : List (String × ApplyOutcome)
  etcd : EtcdOutcome
  deriving DecidableEq, Repr

/-- Can a run over these nodes start etcd on the first? -/
def checkSeed (nodes : List Node) : Except Error Unit :=
  match nodes with
  | [] => .error (.config "no nodes configured")
  | first :: _ =>
    if first.isControlPlane then .ok ()
    else .error (.config
      s!"first node {first.host} must be a control-plane node to bootstrap")

namespace Work

variable {σ : Type}

def waitAllStable : List Node → Work σ Unit
  | [] => return ()
  | node :: rest => do
    waitStable node stableWindow
    waitAllStable rest

def bootstrap (confirm : Bool) : Work σ BootstrapReport := do
  ofExcept (checkSeed (← read).nodes)
  let eligible ← ofExcept (Policy.bootstrap.check (← gather))
  let outcomes ← applyNodes { confirm } false eligible
  let nodes := eligible.map (·.node)
  let etcd ← ensureEtcd nodes
  waitAllStable nodes
  return { outcomes, etcd }

end Work
end Rollout
