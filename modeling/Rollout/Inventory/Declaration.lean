import Rollout.Node
import Rollout.Yaml.Free
import Rollout.Yaml.Node.Reading
import Rollout.Yaml.Writing

/-!
# Declarations

How nodes and cluster parameters are written in YAML.
-/

namespace Rollout

open Yaml Decoder

/-- An address in its usual notation. -/
def addressDecoder : Decoder Address :=
  parsed fun s =>
    match Address.parse? s with
    | some a => .ok a
    | none => .error "invalid IP address syntax"

def roleDecoder : Decoder Role := oneOf [("control-plane", .controlPlane), ("worker", .worker)]

structure PartialNode where
  host : Option String := none
  ip : Option Address := none
  role : Option Role := none
  data : Data := []

def PartialNode.finish (n : PartialNode) : Except String Node := do
  let host ← required "host" n.host
  let role ← required "role" n.role
  return { host, ip := n.ip, role, data := n.data }

def nodeDecoder : Decoder Node :=
  record "struct NodeSpec"
    [.of "host" text fun v n => { n with host := some v },
     .of "ip" (option addressDecoder) fun v n => { n with ip := v },
     .of "role" roleDecoder fun v n => { n with role := some v },
     .of "data" data fun v n => { n with data := v }]
    {} PartialNode.finish

structure PartialCluster where
  name : Option String := none
  endpoint : Option String := none
  kubernetesVersion : Option String := none
  data : Data := []

def PartialCluster.finish (c : PartialCluster) : Except String Cluster := do
  let name ← required "name" c.name
  let endpoint ← required "endpoint" c.endpoint
  return { name, endpoint, kubernetesVersion := c.kubernetesVersion, data := c.data }

def clusterDecoder : Decoder Cluster :=
  record "struct ClusterParams"
    [.of "name" text fun v c => { c with name := some v },
     .of "endpoint" text fun v c => { c with endpoint := some v },
     .of "kubernetesVersion" (option text) fun v c => { c with kubernetesVersion := v },
     .of "data" data fun v c => { c with data := v }]
    {} PartialCluster.finish

/-! ## Writing -/

mutual

def Value.toYaml : Value → Output
  | .null => .null
  | .bool b => .bool b
  | .number (.whole n) => .int n
  | .number (.real x) => .real x
  | .text s => .text s
  | .list items => .list (Value.listToYaml items)
  | .object fields => .map (Value.fieldsToYaml fields)

def Value.listToYaml : List Value → List Output
  | [] => []
  | v :: rest => v.toYaml :: Value.listToYaml rest

def Value.fieldsToYaml : List (String × Value) → List (String × Output)
  | [] => []
  | (name, v) :: rest => (name, v.toYaml) :: Value.fieldsToYaml rest

end

/-- Data under its name; no data is left out. -/
def dataToYaml (d : Data) : List (String × Output) :=
  if d.isEmpty then [] else [("data", .map (Value.fieldsToYaml d))]

/-- A node as it is declared; what is not declared is left out. -/
def Node.toYaml (n : Node) : Output :=
  .map
    ([("host", .text n.host)] ++
      (match n.ip with
        | some ip => [("ip", .text ip.text)]
        | none => []) ++
      [("role", .text n.role.text)] ++ dataToYaml n.data)

def Cluster.toYaml (c : Cluster) : Output :=
  .map
    ([("name", .text c.name), ("endpoint", .text c.endpoint)] ++
      (match c.kubernetesVersion with
        | some v => [("kubernetesVersion", .text v)]
        | none => []) ++ dataToYaml c.data)

end Rollout
