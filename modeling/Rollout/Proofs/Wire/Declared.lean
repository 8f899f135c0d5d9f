import Rollout.Proofs.Wire.Refilling
import Rollout.Wire.Calls

/-!
# The message types

Every message type that goes over the wire, requests and replies, is read back from what it is written as:
each of its fields has a number of its own and leaves alone what the others read. A reply needs no more than
its answers do.
-/

namespace Rollout.Wire

open Message Rollout.Wire.Field Scalar

variable {α : Type}

/-! ## Shared parts -/

theorem Origin.roundTrips : Origin.message.RoundTrips :=
  .of_fields (by decide) fun _ => .cons (.one sound_text rfl) (.cons (.one sound_text rfl) .nil)

theorem answers_roundTrips {name : String} {m : Message α} (h : m.RoundTrips) :
    (answers name m).RoundTrips :=
  .of_fields ⟨by simp [answers, Field.repeated], by simp [answers, Field.repeated, numberLimit]⟩
    fun _ => .cons (.repeated h rfl) .nil

/-! ## The machine service -/

theorem ApplyConfigurationRequest.roundTrips : ApplyConfigurationRequest.message.RoundTrips :=
  .of_fields (by decide) fun _ =>
    .cons (.one sound_bytes rfl) (.cons (.one sound_int32 rfl) (.cons (.one sound_bool rfl) .nil))

theorem ApplyConfiguration.roundTrips : ApplyConfiguration.message.RoundTrips :=
  .of_fields (by decide) fun _ =>
    .cons (.optional Origin.roundTrips rfl)
      (.cons (.many sound_text rfl) (.cons (.one sound_int32 rfl) (.cons (.one sound_text rfl) .nil)))

theorem BootstrapRequest.roundTrips : BootstrapRequest.message.RoundTrips :=
  .of_fields (by decide) fun _ => .cons (.one sound_bool rfl) (.cons (.one sound_bool rfl) .nil)

theorem Bootstrap.roundTrips : Bootstrap.message.RoundTrips :=
  .of_fields (by decide) fun _ => .cons (.optional Origin.roundTrips rfl) .nil

theorem EtcdMemberListRequest.roundTrips : EtcdMemberListRequest.message.RoundTrips :=
  .of_fields (by decide) fun _ => .cons (.one sound_bool rfl) .nil

theorem EtcdMember.roundTrips : EtcdMember.message.RoundTrips :=
  .of_fields (by decide) fun _ =>
    .cons (.one sound_uint64 rfl)
      (.cons (.one sound_text rfl)
        (.cons (.many sound_text rfl) (.cons (.many sound_text rfl) (.cons (.one sound_bool rfl) .nil))))

theorem EtcdMembers.roundTrips : EtcdMembers.message.RoundTrips :=
  .of_fields (by decide) fun _ =>
    .cons (.optional Origin.roundTrips rfl) (.cons (.repeated EtcdMember.roundTrips rfl) .nil)

theorem ServiceInfo.roundTrips : ServiceInfo.message.RoundTrips :=
  .of_fields (by decide) fun _ => .cons (.one sound_text rfl) (.cons (.one sound_text rfl) .nil)

theorem ServiceList.roundTrips : ServiceList.message.RoundTrips :=
  .of_fields (by decide) fun _ =>
    .cons (.optional Origin.roundTrips rfl) (.cons (.repeated ServiceInfo.roundTrips rfl) .nil)

theorem ResetPartition.roundTrips : ResetPartition.message.RoundTrips :=
  .of_fields (by decide) fun _ => .cons (.one sound_text rfl) (.cons (.one sound_bool rfl) .nil)

theorem ResetRequest.roundTrips : ResetRequest.message.RoundTrips :=
  .of_fields (by decide) fun _ =>
    .cons (.one sound_bool rfl)
      (.cons (.one sound_bool rfl) (.cons (.repeated ResetPartition.roundTrips rfl) .nil))

theorem Reset.roundTrips : Reset.message.RoundTrips :=
  .of_fields (by decide) fun _ =>
    .cons (.optional Origin.roundTrips rfl) (.cons (.one sound_text rfl) .nil)

theorem UpgradeRequest.roundTrips : UpgradeRequest.message.RoundTrips :=
  .of_fields (by decide) fun _ =>
    .cons (.one sound_text rfl)
      (.cons (.one sound_bool rfl)
        (.cons (.one sound_bool rfl) (.cons (.one sound_bool rfl) (.cons (.one sound_int32 rfl) .nil))))

theorem Upgrade.roundTrips : Upgrade.message.RoundTrips :=
  .of_fields (by decide) fun _ =>
    .cons (.optional Origin.roundTrips rfl)
      (.cons (.one sound_text rfl) (.cons (.one sound_text rfl) .nil))

/-! ## Events -/

theorem EventsRequest.roundTrips : EventsRequest.message.RoundTrips :=
  .of_fields (by decide) fun _ =>
    .cons (.one sound_int32 rfl)
      (.cons (.one sound_text rfl) (.cons (.one sound_int32 rfl) (.cons (.one sound_text rfl) .nil)))

theorem Content.roundTrips : Content.message.RoundTrips :=
  .of_fields (by decide) fun _ => .cons (.one sound_text rfl) (.cons (.one sound_bytes rfl) .nil)

theorem Event.roundTrips : Event.message.RoundTrips :=
  .of_fields (by decide) fun _ =>
    .cons (.optional Origin.roundTrips rfl)
      (.cons (.optional Content.roundTrips rfl)
        (.cons (.one sound_text rfl) (.cons (.one sound_text rfl) .nil)))

theorem UnmetCondition.roundTrips : UnmetCondition.message.RoundTrips :=
  .of_fields (by decide) fun _ => .cons (.one sound_text rfl) (.cons (.one sound_text rfl) .nil)

theorem MachineStatus.roundTrips : MachineStatus.message.RoundTrips :=
  .of_fields (by decide) fun _ =>
    .cons (.one sound_bool rfl) (.cons (.repeated UnmetCondition.roundTrips rfl) .nil)

theorem MachineStatusEvent.roundTrips : MachineStatusEvent.message.RoundTrips :=
  .of_fields (by decide) fun _ =>
    .cons (.one sound_int32 rfl) (.cons (.optional MachineStatus.roundTrips rfl) .nil)

/-! ## Resources -/

theorem ResourceMetadata.roundTrips : ResourceMetadata.message.RoundTrips :=
  .of_fields (by decide) fun _ =>
    .cons (.one sound_text rfl)
      (.cons (.one sound_text rfl)
        (.cons (.one sound_text rfl)
          (.cons (.one sound_text rfl) (.cons (.one sound_text rfl) (.cons (.one sound_text rfl) .nil)))))

theorem ResourceSpec.roundTrips : ResourceSpec.message.RoundTrips :=
  .of_fields (by decide) fun _ => .cons (.one sound_bytes rfl) (.cons (.one sound_text rfl) .nil)

theorem Resource.roundTrips : Resource.message.RoundTrips :=
  .of_fields (by decide) fun _ =>
    .cons (.optional ResourceMetadata.roundTrips rfl) (.cons (.optional ResourceSpec.roundTrips rfl) .nil)

theorem Resource.reply_roundTrips {name : String} : (Resource.reply name).RoundTrips :=
  .of_fields
    ⟨by simp [Resource.reply, Field.optional], by simp [Resource.reply, Field.optional, numberLimit]⟩
    fun _ => .cons (.optional Resource.roundTrips rfl) .nil

theorem GetRequest.roundTrips : GetRequest.message.RoundTrips :=
  .of_fields (by decide) fun _ =>
    .cons (.one sound_text rfl) (.cons (.one sound_text rfl) (.cons (.one sound_text rfl) .nil))

theorem ListRequest.roundTrips : ListRequest.message.RoundTrips :=
  .of_fields (by decide) fun _ => .cons (.one sound_text rfl) (.cons (.one sound_text rfl) .nil)

/-! ## All of them -/

inductive Declared : {α : Type} → Message α → Prop
  | origin : Declared Origin.message
  | applyConfigurationRequest : Declared ApplyConfigurationRequest.message
  | applyConfiguration : Declared ApplyConfiguration.message
  | applyConfigurations : Declared ApplyConfiguration.answers
  | bootstrapRequest : Declared BootstrapRequest.message
  | bootstrap : Declared Bootstrap.message
  | bootstraps : Declared Bootstrap.answers
  | etcdMemberListRequest : Declared EtcdMemberListRequest.message
  | etcdMember : Declared EtcdMember.message
  | etcdMembers : Declared EtcdMembers.message
  | etcdMemberLists : Declared EtcdMembers.answers
  | serviceInfo : Declared ServiceInfo.message
  | serviceList : Declared ServiceList.message
  | serviceLists : Declared ServiceList.answers
  | resetPartition : Declared ResetPartition.message
  | resetRequest : Declared ResetRequest.message
  | reset : Declared Reset.message
  | resets : Declared Reset.answers
  | upgradeRequest : Declared UpgradeRequest.message
  | upgrade : Declared Upgrade.message
  | upgrades : Declared Upgrade.answers
  | eventsRequest : Declared EventsRequest.message
  | content : Declared Content.message
  | event : Declared Event.message
  | unmetCondition : Declared UnmetCondition.message
  | machineStatus : Declared MachineStatus.message
  | machineStatusEvent : Declared MachineStatusEvent.message
  | resourceMetadata : Declared ResourceMetadata.message
  | resourceSpec : Declared ResourceSpec.message
  | resource : Declared Resource.message
  | getRequest : Declared GetRequest.message
  | found : Declared Resource.found
  | listRequest : Declared ListRequest.message
  | listed : Declared Resource.listed

theorem Declared.roundTrips {m : Message α} (h : Declared m) : m.RoundTrips := by
  cases h with
  | origin => exact Origin.roundTrips
  | applyConfigurationRequest => exact ApplyConfigurationRequest.roundTrips
  | applyConfiguration => exact ApplyConfiguration.roundTrips
  | applyConfigurations => exact answers_roundTrips ApplyConfiguration.roundTrips
  | bootstrapRequest => exact BootstrapRequest.roundTrips
  | bootstrap => exact Bootstrap.roundTrips
  | bootstraps => exact answers_roundTrips Bootstrap.roundTrips
  | etcdMemberListRequest => exact EtcdMemberListRequest.roundTrips
  | etcdMember => exact EtcdMember.roundTrips
  | etcdMembers => exact EtcdMembers.roundTrips
  | etcdMemberLists => exact answers_roundTrips EtcdMembers.roundTrips
  | serviceInfo => exact ServiceInfo.roundTrips
  | serviceList => exact ServiceList.roundTrips
  | serviceLists => exact answers_roundTrips ServiceList.roundTrips
  | resetPartition => exact ResetPartition.roundTrips
  | resetRequest => exact ResetRequest.roundTrips
  | reset => exact Reset.roundTrips
  | resets => exact answers_roundTrips Reset.roundTrips
  | upgradeRequest => exact UpgradeRequest.roundTrips
  | upgrade => exact Upgrade.roundTrips
  | upgrades => exact answers_roundTrips Upgrade.roundTrips
  | eventsRequest => exact EventsRequest.roundTrips
  | content => exact Content.roundTrips
  | event => exact Event.roundTrips
  | unmetCondition => exact UnmetCondition.roundTrips
  | machineStatus => exact MachineStatus.roundTrips
  | machineStatusEvent => exact MachineStatusEvent.roundTrips
  | resourceMetadata => exact ResourceMetadata.roundTrips
  | resourceSpec => exact ResourceSpec.roundTrips
  | resource => exact Resource.roundTrips
  | getRequest => exact GetRequest.roundTrips
  | found => exact Resource.reply_roundTrips
  | listRequest => exact ListRequest.roundTrips
  | listed => exact Resource.reply_roundTrips

/-- What is written is read back, and what was read of any bytes at all can be written and read again. -/
structure Message.Faithful (m : Message α) : Prop where
  decode_encode : ∀ a, m.Writable a → m.decode (m.encode a) = .ok a
  settles : ∀ b a, m.decode b = .ok a → m.Writable a → m.decode (m.encode a) = m.decode b

theorem Declared.faithful {m : Message α} (h : Declared m) : m.Faithful := by
  have hback (a : α) (hwritable : m.Writable a) : m.decode (m.encode a) = .ok a :=
    h.roundTrips.merge_encode depthLimit a hwritable
  refine ⟨hback, fun b a hread hwritable => ?_⟩
  rw [hread, hback a hwritable]

/-- A status event with a stage below nought, which takes ten bytes, and a status that is there but empty. -/
def oddEvent : Event where
  data := some
    ⟨"talos/runtime/machine.MachineStatusEvent",
      MachineStatusEvent.message.encode { stage := -1, status := some {} }⟩
  actorId := "käse"

theorem oddEvent_read_back :
    Event.message.Writable oddEvent ∧ Event.message.decode (Event.message.encode oddEvent) = .ok oddEvent := by
  have hwritable : Event.message.Writable oddEvent := by decide +kernel
  exact ⟨hwritable, Declared.event.faithful.decode_encode oddEvent hwritable⟩

end Rollout.Wire
