import Rollout.Request
import Rollout.Wire.Message
import Rollout.Yaml.Decode
import Rollout.Yaml.Node.Reading
import Rollout.Yaml.Writing

/-!
# Resources of a node

A node shows its state as resources. The envelope goes over the wire as messages, the resource itself
as YAML within: the machine's status, its extensions and its version. The decoders fill in what may be
left out; what they fill in never makes a machine look healthy.
-/

namespace Rollout.Wire

/-! ## Envelopes -/

structure ResourceMetadata where
  space : String := ""
  type : String := ""
  id : String := ""
  version : String := ""
  owner : String := ""
  phase : String := ""
  deriving DecidableEq

def ResourceMetadata.message : Message ResourceMetadata where
  name := "Metadata"
  empty := {}
  fields :=
    [.one .text "namespace" 1 (·.space) fun v a => { a with space := v },
     .one .text "type" 2 (·.type) fun v a => { a with type := v },
     .one .text "id" 3 (·.id) fun v a => { a with id := v },
     .one .text "version" 4 (·.version) fun v a => { a with version := v },
     .one .text "owner" 5 (·.owner) fun v a => { a with owner := v },
     .one .text "phase" 6 (·.phase) fun v a => { a with phase := v }]

structure ResourceSpec where
  proto : Bytes := []
  yaml : String := ""
  deriving DecidableEq

def ResourceSpec.message : Message ResourceSpec where
  name := "Spec"
  empty := {}
  fields :=
    [.one .bytes "proto_spec" 1 (·.proto) fun v a => { a with proto := v },
     .one .text "yaml_spec" 2 (·.yaml) fun v a => { a with yaml := v }]

structure Resource where
  metadata : Option ResourceMetadata := none
  spec : Option ResourceSpec := none
  deriving DecidableEq

namespace Resource

def message : Message Resource where
  name := "Resource"
  empty := {}
  fields :=
    [.optional ResourceMetadata.message "metadata" 1 (·.metadata)
       fun v a => { a with metadata := v },
     .optional ResourceSpec.message "spec" 2 (·.spec) fun v a => { a with spec := v }]

def id (r : Resource) : String := (r.metadata.getD {}).id

/-- The resource as YAML; nothing if there is none. -/
def yaml (r : Resource) : String := (r.spec.getD {}).yaml

def reply (name : String) : Message (Option Resource) where
  name
  empty := none
  fields := [.optional message "resource" 1 (fun r => r) fun v _ => v]

def found : Message (Option Resource) := reply "GetResponse"

def listed : Message (Option Resource) := reply "ListResponse"

end Resource

structure GetRequest where
  space : String := ""
  type : String := ""
  id : String := ""
  deriving DecidableEq

def GetRequest.message : Message GetRequest where
  name := "GetRequest"
  empty := {}
  fields :=
    [.one .text "namespace" 1 (·.space) fun v a => { a with space := v },
     .one .text "type" 2 (·.type) fun v a => { a with type := v },
     .one .text "id" 3 (·.id) fun v a => { a with id := v }]

structure ListRequest where
  space : String := ""
  type : String := ""
  deriving DecidableEq

def ListRequest.message : Message ListRequest where
  name := "ListRequest"
  empty := {}
  fields :=
    [.one .text "namespace" 1 (·.space) fun v a => { a with space := v },
     .one .text "type" 2 (·.type) fun v a => { a with type := v }]

/-! ## What resources hold -/

open Yaml Decoder

def conditionDecoder : Decoder Condition :=
  record "struct ConditionSpec"
    [.of "name" text fun v (c : Condition) => { c with name := v },
     .of "reason" text fun v c => { c with reason := v }]
    ⟨"", ""⟩ .ok

def readinessDecoder : Decoder Readiness :=
  record "struct StatusSpec"
    [.of "ready" bool fun v (r : Readiness) => { r with ready := v },
     .of "unmetConditions" (list conditionDecoder) fun v r => { r with unmet := v }]
    {} .ok

def statusDecoder : Decoder Status :=
  record "struct MachineStatusSpec"
    [.of "stage" text fun v (s : Status) => { s with stage := Stage.ofText v },
     .of "status" readinessDecoder fun v s => { s with readiness := v }]
    {} .ok

def extensionDecoder : Decoder Extension :=
  record "struct ExtensionSpec"
    [.of "metadata"
       (record "struct ExtensionMetadata"
         [.of "name" text fun v (e : Extension) => { e with name := v },
          .of "version" text fun v e => { e with version := v }]
         ⟨"", ""⟩ .ok)
       fun v (_ : Option Extension) => some v]
    none (required "metadata")

def versionDecoder : Decoder String :=
  record "struct VersionSpec" [.of "version" text fun v (_ : Option String) => some v]
    none (required "version")

def conditionOutput (c : Condition) : Output :=
  .map [("name", .text c.name), ("reason", .text c.reason)]

def readinessOutput (r : Readiness) : Output :=
  .map
    ([("ready", .bool r.ready)] ++
      if r.unmet.isEmpty then [] else [("unmetConditions", .list (r.unmet.map conditionOutput))])

def statusOutput (s : Status) : Output :=
  .map [("stage", .text s.stage.text), ("status", readinessOutput s.readiness)]

def extensionOutput (e : Extension) : Output :=
  .map [("metadata", .map [("name", .text e.name), ("version", .text e.version)])]

def versionOutput (version : String) : Output := .map [("version", .text version)]

def Resource.of (o : Output) : Resource := { spec := some { yaml := o.write } }

def Resource.decode {α : Type} (what : String) (decoder : Decoder α) (r : Resource) :
    Except ApiError α :=
  match decodeOnly decoder (documentsOf (.ofText r.yaml)) with
  | .ok a => .ok a
  | .error p => .error (.decode what p.message)

end Rollout.Wire
