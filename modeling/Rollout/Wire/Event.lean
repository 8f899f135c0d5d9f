import Rollout.Request
import Rollout.Wire.Machine

/-!
# Events on the wire

A node reports events of many types; each carries its type by name and its content as bytes. Only a
change of the machine's status is of interest, all others are known by their type alone.
-/

namespace Rollout.Wire

structure EventsRequest where
  tailEvents : Int32 := 0
  tailId : String := ""
  tailSeconds : Int32 := 0
  withActorId : String := ""
  deriving DecidableEq

def EventsRequest.message : Message EventsRequest where
  name := "EventsRequest"
  empty := {}
  fields :=
    [.one .int32 "tail_events" 1 (·.tailEvents) fun v a => { a with tailEvents := v },
     .one .text "tail_id" 2 (·.tailId) fun v a => { a with tailId := v },
     .one .int32 "tail_seconds" 3 (·.tailSeconds) fun v a => { a with tailSeconds := v },
     .one .text "with_actor_id" 4 (·.withActorId) fun v a => { a with withActorId := v }]

structure Content where
  typeUrl : String := ""
  value : Bytes := []
  deriving DecidableEq

def Content.message : Message Content where
  name := "Any"
  empty := {}
  fields :=
    [.one .text "type_url" 1 (·.typeUrl) fun v a => { a with typeUrl := v },
     .one .bytes "value" 2 (·.value) fun v a => { a with value := v }]

structure Event where
  origin : Option Origin := none
  data : Option Content := none
  id : String := ""
  actorId : String := ""
  deriving DecidableEq

def Event.message : Message Event where
  name := "Event"
  empty := {}
  fields :=
    [.optional Origin.message "metadata" 1 (·.origin) fun v a => { a with origin := v },
     .optional Content.message "data" 2 (·.data) fun v a => { a with data := v },
     .one .text "id" 3 (·.id) fun v a => { a with id := v },
     .one .text "actor_id" 4 (·.actorId) fun v a => { a with actorId := v }]

structure UnmetCondition where
  name : String := ""
  reason : String := ""
  deriving DecidableEq

def UnmetCondition.message : Message UnmetCondition where
  name := "UnmetCondition"
  empty := {}
  fields :=
    [.one .text "name" 1 (·.name) fun v a => { a with name := v },
     .one .text "reason" 2 (·.reason) fun v a => { a with reason := v }]

structure MachineStatus where
  ready : Bool := false
  unmet : List UnmetCondition := []
  deriving DecidableEq

def MachineStatus.message : Message MachineStatus where
  name := "MachineStatus"
  empty := {}
  fields :=
    [.one .bool "ready" 1 (·.ready) fun v a => { a with ready := v },
     .repeated UnmetCondition.message "unmet_conditions" 2 (·.unmet)
       fun v a => { a with unmet := v }]

structure MachineStatusEvent where
  stage : Int32 := 0
  status : Option MachineStatus := none
  deriving DecidableEq

def MachineStatusEvent.message : Message MachineStatusEvent where
  name := "MachineStatusEvent"
  empty := {}
  fields :=
    [.one .int32 "stage" 1 (·.stage) fun v a => { a with stage := v },
     .optional MachineStatus.message "status" 2 (·.status) fun v a => { a with status := v }]

/-- The stages in the order of their numbers. -/
def stages : List Stage :=
  [.unknown, .booting, .installing, .maintenance, .running, .rebooting, .shuttingDown, .resetting,
    .upgrading]

/-- The stage of a number; one that stands for no stage is `unknown`. -/
def stageOfNumber (n : Int32) : Stage :=
  if n < 0 then .unknown else (stages[n.toInt.toNat]?).getD .unknown

def stageNumber (s : Stage) : Int32 := Int32.ofNat (stages.idxOf s)

/-- What the type of a status event ends with. -/
def statusEventType : String := "machine.MachineStatusEvent"

def isStatusEvent (typeUrl : String) : Bool := statusEventType.toList.isSuffixOf typeUrl.toList

def MachineStatusEvent.toStatus (e : MachineStatusEvent) : Status :=
  let s := e.status.getD {}
  { stage := stageOfNumber e.stage
    readiness := { ready := s.ready, unmet := s.unmet.map fun c => ⟨c.name, c.reason⟩ } }

def MachineStatusEvent.ofStatus (s : Status) : MachineStatusEvent :=
  { stage := stageNumber s.stage
    status := some
      { ready := s.readiness.ready, unmet := s.readiness.unmet.map fun c => ⟨c.name, c.reason⟩ } }

/-- What a node reports with an event. -/
def Event.read (e : Event) : Except ApiError NodeEvent :=
  match e.data with
  | none => .ok (.other "")
  | some content =>
    if !isStatusEvent content.typeUrl then .ok (.other content.typeUrl)
    else match MachineStatusEvent.message.decode content.value with
      | .error p => .error (.decode "machine status event" p.text)
      | .ok payload => .ok (.status payload.toStatus)

/-- The event that reports something. -/
def Event.ofReport : NodeEvent → Event
  | .status s =>
    { data := some
        ⟨"talos/runtime/" ++ statusEventType, MachineStatusEvent.message.encode (.ofStatus s)⟩ }
  | .other typeUrl => { data := some ⟨typeUrl, []⟩ }

end Rollout.Wire
