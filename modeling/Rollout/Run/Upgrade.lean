import Rollout.Image
import Rollout.MachineConfig
import Rollout.Run.Apply

/-!
# Upgrading

A node is upgraded when the image its configuration names differs from what it runs, in schematic or
version. Nodes are upgraded one at a time, in visiting order; an upgraded node reboots and has to become
stable before the next one has its turn.
-/

namespace Rollout

structure UpgradeOptions where
  dryRun : Bool := false
  confirm : Bool := true
  force : Bool := false
  preserve : Bool := true
  rebootMode : RebootMode := .default
  skipProblematic : Bool := false
  deriving DecidableEq, Repr

inductive UpgradeOutcome where
  | upToDate
  | pending
  | skipped
  | upgraded
  deriving DecidableEq, Repr

namespace UpgradeOptions

def policy (o : UpgradeOptions) : Policy :=
  { Policy.upgrade with skipProblematic := o.skipProblematic }

def request (o : UpgradeOptions) (image : String) : UpgradeRequest :=
  { image, preserve := o.preserve, force := o.force, rebootMode := o.rebootMode }

end UpgradeOptions

/-- Does a node already run this image? -/
def Observation.runs (o : Observation) (image : InstallerImage) : Bool :=
  image.schematic == o.schematic && image.version == o.osVersion

namespace Work

variable {σ : Type}

def upgradeQuestion (host image : String) : String :=
  s!"Do you want to upgrade node {host} with installer {image}? This will reboot the node."

/-- The image a node should run: as written, and its parts. -/
def desiredImage (o : Observation) : Work σ (String × InstallerImage) := do
  let image ← ofExcept (MachineConfig.installerImage (← configOf o))
  return (image, ← ofExcept (InstallerImage.parse image))

def upgradeNode (o : Observation) (options : UpgradeOptions) : Work σ UpgradeOutcome := do
  let (image, desired) ← desiredImage o
  if o.runs desired then return .upToDate
  if options.dryRun then return .pending
  if options.confirm then
    if !(← ask (upgradeQuestion o.host image)) then return .skipped
  let client ← connected o.node
  match ← request client (.upgrade (options.request image)) with
  | .error e => fail (.upgrade o.host e)
  | .ok () =>
    waitStable o.node stableWindow
    return .upgraded

def upgradeNodes (options : UpgradeOptions) :
    List Observation → Work σ (List (String × UpgradeOutcome))
  | [] => return []
  | o :: rest => do
    checkpoint
    let outcome ← upgradeNode o options
    return (o.host, outcome) :: (← upgradeNodes options rest)

def upgrade (options : UpgradeOptions) : Work σ (List (String × UpgradeOutcome)) := do
  upgradeNodes options (← ofExcept (options.policy.check (← gather)))

end Work
end Rollout
