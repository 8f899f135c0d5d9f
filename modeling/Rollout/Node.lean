import Rollout.Address
import Rollout.Error
import Rollout.Text.Blank
import Rollout.Value

/-!
# Nodes

A node as the operator declares it, and the order in which a rollout visits nodes: control plane
before workers, by host within a role. The order decides which node starts etcd, so it depends on
nothing but the nodes.
-/

namespace Rollout

inductive Role where
  | controlPlane
  | worker
  deriving DecidableEq, Repr

namespace Role

def text : Role → String
  | controlPlane => "control-plane"
  | worker => "worker"

/-- Reads a role; the control plane may also be written in one word. -/
def parse (s : String) : Except Error Role :=
  if s = "control-plane" ∨ s = "controlplane" then .ok controlPlane
  else if s = "worker" then .ok worker
  else .error (.config
    s!"unknown node role {Text.quoted s} (expected control-plane or worker)")

end Role

/-- A declared node. -/
structure Node where
  host : String
  ip : Option Address := none
  role : Role
  data : Data := []

namespace Node

def isControlPlane (n : Node) : Bool := n.role == .controlPlane

/-- Where the node is reached: its address if it has one, else its host name. -/
def endpoint (n : Node) : String :=
  match n.ip with
  | some ip => ip.text
  | none => n.host

/-- The endpoint with a port, an IPv6 address in brackets. -/
def authority (n : Node) (port : Nat) : String :=
  match n.ip with
  | some (.v6 groups) => s!"[{Address.text (.v6 groups)}]:{port}"
  | some ip => s!"{ip.text}:{port}"
  | none => s!"{n.host}:{port}"

/-- A host name is more than blanks. -/
def validate (n : Node) : Except Error Unit :=
  if (Text.trim n.host).isEmpty then .error (.config "node host must not be empty") else .ok ()

/-- May `a` be visited before `b`? -/
def notAfter (a b : Node) : Bool :=
  if a.isControlPlane == b.isControlPlane then a.host ≤ b.host else a.isControlPlane

/-- The nodes in visiting order; nodes that tie keep their order. -/
def inOrder (nodes : List Node) : List Node := nodes.mergeSort notAfter

end Node

/-- What a configuration is rendered from, besides the node. -/
structure Cluster where
  name : String
  endpoint : String
  kubernetesVersion : Option String := none
  data : Data := []

end Rollout
