import Rollout.Wire.Message

/-!
# The messages of the machine service

The requests that a node's machine service takes and its replies, as far as this program uses them. A
request may pass through one node to others, so a reply is a list of answers, each with its origin.
-/

namespace Rollout.Wire

/-- The node an answer is from. -/
structure Origin where
  hostname : String := ""
  error : String := ""
  deriving DecidableEq

def Origin.message : Message Origin where
  name := "Metadata"
  empty := {}
  fields :=
    [.one .text "hostname" 1 (·.hostname) fun v a => { a with hostname := v },
     .one .text "error" 2 (·.error) fun v a => { a with error := v }]

/-- A reply: the answers of all nodes asked. -/
def answers {α : Type} (name : String) (m : Message α) : Message (List α) where
  name
  empty := []
  fields := [.repeated m "messages" 1 id fun v _ => v]

/-! ## Configuration -/

/-- How a configuration takes effect. -/
inductive ApplyMode where
  | reboot
  | auto
  | noReboot
  | staged
  | trial
  deriving DecidableEq, Repr

namespace ApplyMode

def number : ApplyMode → Int32
  | reboot => 0
  | auto => 1
  | noReboot => 2
  | staged => 3
  | trial => 4

def text : ApplyMode → String
  | reboot => "reboot"
  | auto => "auto"
  | noReboot => "no_reboot"
  | staged => "staged"
  | trial => "try"

def all : List ApplyMode := [reboot, auto, noReboot, staged, trial]

/-- The mode of a number; one that stands for no mode is read as `reboot`. -/
def ofNumber (n : Int32) : ApplyMode := (all.find? (·.number == n)).getD reboot

def ofText? (s : String) : Option ApplyMode := all.find? (·.text == s)

end ApplyMode

structure ApplyConfigurationRequest where
  data : Bytes := []
  mode : Int32 := 0
  dryRun : Bool := false
  deriving DecidableEq

def ApplyConfigurationRequest.message : Message ApplyConfigurationRequest where
  name := "ApplyConfigurationRequest"
  empty := {}
  fields :=
    [.one .bytes "data" 1 (·.data) fun v a => { a with data := v },
     .one .int32 "mode" 4 (·.mode) fun v a => { a with mode := v },
     .one .bool "dry_run" 5 (·.dryRun) fun v a => { a with dryRun := v }]

structure ApplyConfiguration where
  origin : Option Origin := none
  warnings : List String := []
  mode : Int32 := 0
  details : String := ""
  deriving DecidableEq

def ApplyConfiguration.message : Message ApplyConfiguration where
  name := "ApplyConfiguration"
  empty := {}
  fields :=
    [.optional Origin.message "metadata" 1 (·.origin) fun v a => { a with origin := v },
     .many .text "warnings" 2 (·.warnings) fun v a => { a with warnings := v },
     .one .int32 "mode" 3 (·.mode) fun v a => { a with mode := v },
     .one .text "mode_details" 4 (·.details) fun v a => { a with details := v }]

def ApplyConfiguration.answers : Message (List ApplyConfiguration) :=
  Wire.answers "ApplyConfigurationResponse" message

/-! ## Starting etcd -/

structure BootstrapRequest where
  recoverEtcd : Bool := false
  skipHashCheck : Bool := false
  deriving DecidableEq

def BootstrapRequest.message : Message BootstrapRequest where
  name := "BootstrapRequest"
  empty := {}
  fields :=
    [.one .bool "recover_etcd" 1 (·.recoverEtcd) fun v a => { a with recoverEtcd := v },
     .one .bool "recover_skip_hash_check" 2 (·.skipHashCheck)
       fun v a => { a with skipHashCheck := v }]

structure Bootstrap where
  origin : Option Origin := none
  deriving DecidableEq

def Bootstrap.message : Message Bootstrap where
  name := "Bootstrap"
  empty := {}
  fields := [.optional Origin.message "metadata" 1 (·.origin) fun v a => { a with origin := v }]

def Bootstrap.answers : Message (List Bootstrap) := Wire.answers "BootstrapResponse" message

structure EtcdMemberListRequest where
  queryLocal : Bool := false
  deriving DecidableEq

def EtcdMemberListRequest.message : Message EtcdMemberListRequest where
  name := "EtcdMemberListRequest"
  empty := {}
  fields := [.one .bool "query_local" 1 (·.queryLocal) fun v a => { a with queryLocal := v }]

structure EtcdMember where
  id : UInt64 := 0
  hostname : String := ""
  peerUrls : List String := []
  clientUrls : List String := []
  isLearner : Bool := false
  deriving DecidableEq

def EtcdMember.message : Message EtcdMember where
  name := "EtcdMember"
  empty := {}
  fields :=
    [.one .uint64 "id" 2 (·.id) fun v a => { a with id := v },
     .one .text "hostname" 3 (·.hostname) fun v a => { a with hostname := v },
     .many .text "peer_urls" 4 (·.peerUrls) fun v a => { a with peerUrls := v },
     .many .text "client_urls" 5 (·.clientUrls) fun v a => { a with clientUrls := v },
     .one .bool "is_learner" 6 (·.isLearner) fun v a => { a with isLearner := v }]

structure EtcdMembers where
  origin : Option Origin := none
  members : List EtcdMember := []
  deriving DecidableEq

def EtcdMembers.message : Message EtcdMembers where
  name := "EtcdMembers"
  empty := {}
  fields :=
    [.optional Origin.message "metadata" 1 (·.origin) fun v a => { a with origin := v },
     .repeated EtcdMember.message "members" 3 (·.members) fun v a => { a with members := v }]

def EtcdMembers.answers : Message (List EtcdMembers) :=
  Wire.answers "EtcdMemberListResponse" message

/-! ## Services -/

structure ServiceInfo where
  id : String := ""
  state : String := ""
  deriving DecidableEq

def ServiceInfo.message : Message ServiceInfo where
  name := "ServiceInfo"
  empty := {}
  fields :=
    [.one .text "id" 1 (·.id) fun v a => { a with id := v },
     .one .text "state" 2 (·.state) fun v a => { a with state := v }]

structure ServiceList where
  origin : Option Origin := none
  services : List ServiceInfo := []
  deriving DecidableEq

def ServiceList.message : Message ServiceList where
  name := "ServiceList"
  empty := {}
  fields :=
    [.optional Origin.message "metadata" 1 (·.origin) fun v a => { a with origin := v },
     .repeated ServiceInfo.message "services" 2 (·.services) fun v a => { a with services := v }]

def ServiceList.answers : Message (List ServiceList) := Wire.answers "ServiceListResponse" message

/-! ## Reset -/

structure ResetPartition where
  label : String := ""
  wipe : Bool := false
  deriving DecidableEq

def ResetPartition.message : Message ResetPartition where
  name := "ResetPartitionSpec"
  empty := {}
  fields :=
    [.one .text "label" 1 (·.label) fun v a => { a with label := v },
     .one .bool "wipe" 2 (·.wipe) fun v a => { a with wipe := v }]

structure ResetRequest where
  graceful : Bool := false
  reboot : Bool := false
  partitions : List ResetPartition := []
  deriving DecidableEq

def ResetRequest.message : Message ResetRequest where
  name := "ResetRequest"
  empty := {}
  fields :=
    [.one .bool "graceful" 1 (·.graceful) fun v a => { a with graceful := v },
     .one .bool "reboot" 2 (·.reboot) fun v a => { a with reboot := v },
     .repeated ResetPartition.message "system_partitions_to_wipe" 3 (·.partitions)
       fun v a => { a with partitions := v }]

structure Reset where
  origin : Option Origin := none
  actorId : String := ""
  deriving DecidableEq

def Reset.message : Message Reset where
  name := "Reset"
  empty := {}
  fields :=
    [.optional Origin.message "metadata" 1 (·.origin) fun v a => { a with origin := v },
     .one .text "actor_id" 2 (·.actorId) fun v a => { a with actorId := v }]

def Reset.answers : Message (List Reset) := Wire.answers "ResetResponse" message

/-! ## Upgrade -/

structure UpgradeRequest where
  image : String := ""
  preserve : Bool := false
  stage : Bool := false
  force : Bool := false
  rebootMode : Int32 := 0
  deriving DecidableEq

def UpgradeRequest.message : Message UpgradeRequest where
  name := "UpgradeRequest"
  empty := {}
  fields :=
    [.one .text "image" 1 (·.image) fun v a => { a with image := v },
     .one .bool "preserve" 2 (·.preserve) fun v a => { a with preserve := v },
     .one .bool "stage" 3 (·.stage) fun v a => { a with stage := v },
     .one .bool "force" 4 (·.force) fun v a => { a with force := v },
     .one .int32 "reboot_mode" 5 (·.rebootMode) fun v a => { a with rebootMode := v }]

structure Upgrade where
  origin : Option Origin := none
  ack : String := ""
  actorId : String := ""
  deriving DecidableEq

def Upgrade.message : Message Upgrade where
  name := "Upgrade"
  empty := {}
  fields :=
    [.optional Origin.message "metadata" 1 (·.origin) fun v a => { a with origin := v },
     .one .text "ack" 2 (·.ack) fun v a => { a with ack := v },
     .one .text "actor_id" 3 (·.actorId) fun v a => { a with actorId := v }]

def Upgrade.answers : Message (List Upgrade) := Wire.answers "UpgradeResponse" message

end Rollout.Wire
