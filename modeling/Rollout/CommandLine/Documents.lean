import Rollout.Inventory.ClusterFile
import Rollout.Run.Observation
import Rollout.Secrets.Bundle
import Rollout.Text.Base64
import Rollout.Yaml.Writing

/-!
# Documents

What commands print as YAML: the state of nodes, and files for other programs made from the secrets.
Texts of keys and certificates are printed in Base64.
-/

namespace Rollout

open Yaml

namespace Documents

def base64 (s : String) : Output := .text (Base64.encode (.ofText s))

def textOrNull : Option String → Output
  | some s => .text s
  | none => .null

/-- A configuration for clients of the nodes' interface. A single node is the one they talk to. -/
def clientConfig (cluster : String) (nodes : List Node) (b : Bundle) : Output :=
  let endpoints := match nodes with
    | [node] => [("endpoints", .list [.text node.endpoint]), ("nodes", .list [.text node.endpoint])]
    | _ => []
  .map
    [("context", .text cluster),
     ("contexts", .map [(cluster, .map (endpoints ++
       [("ca", base64 b.os.crt), ("crt", base64 b.admin.crt), ("key", base64 b.admin.key)]))])]

def kubeUser : String := "herd"

def kubeconfig (cluster server : String) (b : Bundle) (client : KeyPair) : Output :=
  let context := kubeUser ++ "@" ++ cluster
  .map
    [("apiVersion", .text "v1"),
     ("kind", .text "Config"),
     ("clusters", .list [.map
       [("name", .text cluster),
        ("cluster", .map
          [("server", .text server), ("certificate-authority-data", base64 b.k8s.crt)])]]),
     ("contexts", .list [.map
       [("name", .text context),
        ("context", .map [("cluster", .text cluster), ("user", .text kubeUser)])]]),
     ("current-context", .text context),
     ("users", .list [.map
       [("name", .text kubeUser),
        ("user", .map
          [("client-certificate-data", base64 client.crt), ("client-key-data", base64 client.key)])]])]

/-- What may be known of a cluster: no keys. -/
def clusterInfo (f : ClusterFile) (nodes : List Node) (b : Bundle) : Output :=
  .map
    [("clusterName", .text f.name),
     ("clusterEndpoint", .text f.endpoint),
     ("clusterCA", base64 b.k8s.crt),
     ("etcdCA", base64 b.etcd.crt),
     ("osCA", base64 b.os.crt),
     ("kubernetesVersion", textOrNull f.kubernetesVersion),
     ("nodes", .list (nodes.map Node.toYaml))]

end Documents

/-! ## The state of nodes -/

structure NodeRow where
  host : String
  ip : Option String
  role : String
  stage : String
  ready : Bool
  unmet : Option String
  schematic : String
  osVersion : Option String
  error : Option String

namespace NodeRow

def of (o : Observation) : NodeRow :=
  { host := o.host
    ip := o.node.ip.map (·.text)
    role := o.node.role.text
    stage := o.stage.text
    ready := o.readiness.ready
    unmet := if o.readiness.unmet.isEmpty then none else some o.readiness.summary
    schematic := o.schematic
    osVersion := if o.osVersion.isEmpty then none else some o.osVersion
    error := o.failure.map (·.message) }

def toYaml (r : NodeRow) : Output :=
  .map
    [("host", .text r.host),
     ("ip", Documents.textOrNull r.ip),
     ("role", .text r.role),
     ("stage", .text r.stage),
     ("ready", .bool r.ready),
     ("unmetConditions", Documents.textOrNull r.unmet),
     ("schematic", .text r.schematic),
     ("osVersion", Documents.textOrNull r.osVersion),
     ("error", Documents.textOrNull r.error)]

def header : List String :=
  ["Host", "IP", "Role", "Stage", "Ready", "Unmet Conditions", "Schematic", "Version", "Error"]

/-- How much of a schematic a table shows. -/
def schematicWidth : Nat := 12

def shownSchematic (s : String) : String :=
  if s.isEmpty then "-" else String.ofList (s.toList.take schematicWidth)

def orDash (s : Option String) : String := s.getD "-"

def cells (r : NodeRow) : List String :=
  [r.host, orDash r.ip, r.role, r.stage, if r.ready then "true" else "false", orDash r.unmet,
   shownSchematic r.schematic, orDash r.osVersion, orDash r.error]

end NodeRow
end Rollout
