import Rollout.Failure
import Rollout.Inventory.Declaration

/-!
# The cluster file

What the operator declares: the cluster, its nodes, and the helper programs that list more nodes or keep
the secrets.
-/

namespace Rollout

open Yaml Decoder

structure ClusterFile where
  name : String
  endpoint : String
  kubernetesVersion : Option String := none
  /-- The program that keeps the secrets. -/
  secretsProvider : Option String := none
  /-- The program that lists more nodes. -/
  nodesProvider : Option String := none
  data : Data := []
  nodes : List Node := []

structure PartialFile where
  name : Option String := none
  endpoint : Option String := none
  kubernetesVersion : Option String := none
  secretsProvider : Option String := none
  nodesProvider : Option String := none
  data : Data := []
  nodes : List Node := []

def PartialFile.finish (f : PartialFile) : Except String ClusterFile := do
  let name ← required "clusterName" f.name
  let endpoint ← required "clusterEndpoint" f.endpoint
  return ⟨name, endpoint, f.kubernetesVersion, f.secretsProvider, f.nodesProvider, f.data, f.nodes⟩

namespace ClusterFile

def decoder : Decoder ClusterFile :=
  record "struct ClusterFile"
    [.of "clusterName" text fun v f => { f with name := some v },
     .of "clusterEndpoint" text fun v f => { f with endpoint := some v },
     .of "kubernetesVersion" (option text) fun v f => { f with kubernetesVersion := v },
     .of "secretsProvider" (option text) fun v f => { f with secretsProvider := v },
     .of "nodesProvider" (option text) fun v f => { f with nodesProvider := v },
     .of "data" Decoder.data fun v f => { f with data := v },
     .of "nodes" (list nodeDecoder) fun v f => { f with nodes := v }]
    {} PartialFile.finish

def cluster (f : ClusterFile) : Cluster :=
  { name := f.name, endpoint := f.endpoint, kubernetesVersion := f.kubernetesVersion, data := f.data }

/-- Do the characters of `part` stand somewhere in a row? -/
def containsRun (part : List Char) : List Char → Bool
  | [] => part.isEmpty
  | c :: rest => part.isPrefixOf (c :: rest) || containsRun part rest

/-- The first node whose declaration is refused. -/
def validateNodes : List Node → Except Failure Unit
  | [] => .ok ()
  | n :: rest =>
    match n.validate with
    | .error e => .error (.run e)
    | .ok () => validateNodes rest

def validate (f : ClusterFile) : Except Failure Unit :=
  if (Text.trim f.name).isEmpty then .error (.message "clusterName must not be empty")
  else if !containsRun "://".toList f.endpoint.toList then
    .error (.message s!"clusterEndpoint must be a URL, got {Text.quoted f.endpoint}")
  else validateNodes f.nodes

def parse (yaml : Bytes) : Except Failure ClusterFile :=
  match decodeOnly decoder (documentsOf yaml) with
  | .error problem => .error (.yaml problem)
  | .ok file => do
    file.validate
    return file

end ClusterFile

/-- The blanks of ASCII, as a helper may print them around nothing. -/
def isAsciiBlank (b : UInt8) : Bool := b == 32 || b == 9 || b == 10 || b == 12 || b == 13

/-- Reads the nodes a helper program lists; blanks alone are no nodes. -/
def parseListedNodes (output : Bytes) : Except Failure (List Node) :=
  if output.all isAsciiBlank then .ok []
  else match decodeOnly (list nodeDecoder) (documentsOf output) with
    | .error problem => .error (.during "Failed to parse nodes from provider" (.yaml problem))
    | .ok nodes => do
      ClusterFile.validateNodes nodes
      return nodes

end Rollout
