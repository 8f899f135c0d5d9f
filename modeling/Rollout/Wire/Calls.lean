import Rollout.Wire.Event
import Rollout.Wire.Resource

/-!
# Requests on the wire

Each request is a call of a method with one message; the node answers with messages and a status. Here
is what goes out for a request and what the request makes of what comes back, and the other side: what
a node sends for a reply.
-/

namespace Rollout.Wire

/-- A call of a method. -/
structure Exchange where
  path : String
  request : Bytes
  deriving DecidableEq

/-- What comes back: messages, and a status. -/
structure Transfer where
  messages : List Bytes := []
  code : Nat := 0
  status : String := ""

def machineMethod (name : String) : String := "/machine.MachineService/" ++ name

def stateMethod (name : String) : String := "/cosi.resource.State/" ++ name

def runtimeSpace : String := "runtime"

def statusType : String := "MachineStatuses.runtime.talos.dev"

def statusId : String := "machine"

def extensionType : String := "ExtensionStatuses.runtime.talos.dev"

def versionType : String := "Versions.runtime.talos.dev"

def listExchange (type : String) : Exchange :=
  ⟨stateMethod "List", ListRequest.message.encode { space := runtimeSpace, type }⟩

def rebootModeNumber : RebootMode → Int32
  | .default => 0
  | .powercycle => 1

/-- What goes out for a request. -/
def exchange : Request → Exchange
  | .status =>
    ⟨stateMethod "Get",
      GetRequest.message.encode { space := runtimeSpace, type := statusType, id := statusId }⟩
  | .extensions => listExchange extensionType
  | .osVersion => listExchange versionType
  | .applyConfiguration data dryRun =>
    ⟨machineMethod "ApplyConfiguration",
      ApplyConfigurationRequest.message.encode { data, mode := ApplyMode.auto.number, dryRun }⟩
  | .bootstrap => ⟨machineMethod "Bootstrap", BootstrapRequest.message.encode {}⟩
  | .reset r =>
    ⟨machineMethod "Reset",
      ResetRequest.message.encode
        { graceful := r.graceful, reboot := r.reboot
          partitions := r.partitions.map fun p => ⟨p.label, p.wipe⟩ }⟩
  | .upgrade r =>
    ⟨machineMethod "Upgrade",
      UpgradeRequest.message.encode
        { image := r.image, preserve := r.preserve, force := r.force
          rebootMode := rebootModeNumber r.rebootMode }⟩
  | .etcdMembers => ⟨machineMethod "EtcdMemberList", EtcdMemberListRequest.message.encode {}⟩
  | .serviceState _ => ⟨machineMethod "ServiceList", []⟩
  | .watch => ⟨machineMethod "Events", EventsRequest.message.encode {}⟩

/-! ## What comes back -/

/-- The codes a status may have; any other is read as 2, unknown. -/
def statusCode (n : Nat) : Nat := if n ≤ 16 then n else 2

namespace Transfer

variable {α : Type}

/-- Fails unless the status is OK. -/
def check (t : Transfer) : Except ApiError Unit :=
  if t.code = 0 then .ok () else .error (.status (statusCode t.code) t.status)

/-- A message; one that cannot be read ends the call with the status of an internal error. -/
def decode (m : Message α) (b : Bytes) : Except ApiError α :=
  match m.decode b with
  | .ok a => .ok a
  | .error p => .error (.status 13 p.text)

def all (t : Transfer) (m : Message α) : Except ApiError (List α) := do
  let messages ← t.messages.mapM (decode m)
  t.check
  return messages

def one (t : Transfer) (m : Message α) : Except ApiError α := do
  if t.messages.isEmpty then
    t.check
    throw (.status 13 "Missing response message.")
  match ← t.all m with
  | a :: _ => return a
  | [] => throw (.status 13 "Missing response message.")

end Transfer

def listedResources (t : Transfer) : Except ApiError (List Resource) := do
  return (← t.all Resource.listed).filterMap id

def receiveStatus (t : Transfer) : Except ApiError Status := do
  match ← t.one Resource.found with
  | none => throw (.decode "resource" s!"{statusType} {statusId} missing from response")
  | some r => r.decode "machine status" statusDecoder

def receiveExtensions (t : Transfer) : Except ApiError (List Extension) := do
  (← listedResources t).mapM fun r => r.decode "extension status" extensionDecoder

/-- A version without the letters `v` in front. -/
def bareVersion (s : String) : String := String.ofList (s.toList.dropWhile (· == 'v'))

def receiveVersion (t : Transfer) : Except ApiError String := do
  match ← listedResources t with
  | [] => throw (.decode "version" "no version resource")
  | r :: _ => return bareVersion (← r.decode "version" versionDecoder)

def receiveApply (t : Transfer) : Except ApiError ApplyReply := do
  match ← t.one ApplyConfiguration.answers with
  | [] => throw (.decode "apply response" "empty response")
  | a :: _ => return ⟨(ApplyMode.ofNumber a.mode).text, a.details, a.warnings⟩

def receiveEvent (b : Bytes) : Except ApiError NodeEvent := do
  (← Transfer.decode Event.message b).read

/-- The events of a subscription that ends; a status other than OK is the last of them. -/
def receiveEvents (t : Transfer) : EventStream :=
  let ending := match t.check with
    | .ok () => []
    | .error e => [.error e]
  ⟨(t.messages.map receiveEvent ++ ending).map fun e => (0, e), true⟩

/-- What a request makes of what comes back. -/
def receive : (r : Request) → Transfer → Except ApiError r.Reply
  | .status, t => receiveStatus t
  | .extensions, t => receiveExtensions t
  | .osVersion, t => receiveVersion t
  | .applyConfiguration _ _, t => receiveApply t
  | .bootstrap, t => do let _ ← t.one Bootstrap.answers
  | .reset _, t => do let _ ← t.one Reset.answers
  | .upgrade _, t => do let _ ← t.one Upgrade.answers
  | .etcdMembers, t => do
    return ((← t.one EtcdMembers.answers).flatMap (·.members)).length
  | .serviceState service, t => do
    let services := (← t.one ServiceList.answers).flatMap (·.services)
    return (services.find? (·.id == service)).map (·.state)
  | .watch, t => .ok (receiveEvents t)

/-! ## The other side -/

/-- What a node sends for a reply. -/
def send : (r : Request) → r.Reply → Transfer
  | .status, s => ⟨[Resource.found.encode (some (.of (statusOutput s)))], 0, ""⟩
  | .extensions, es => { messages := es.map fun e => Resource.listed.encode (some (.of (extensionOutput e))) }
  | .osVersion, v => { messages := [Resource.listed.encode (some (.of (versionOutput v)))] }
  | .applyConfiguration _ _, a =>
    let mode := ((ApplyMode.ofText? a.mode).getD .auto).number
    { messages :=
        [ApplyConfiguration.answers.encode [{ mode, details := a.details, warnings := a.warnings }]] }
  | .bootstrap, _ => { messages := [Bootstrap.answers.encode [{}]] }
  | .reset _, _ => { messages := [Reset.answers.encode [{}]] }
  | .upgrade _, _ => { messages := [Upgrade.answers.encode [{}]] }
  | .etcdMembers, n =>
    { messages := [EtcdMembers.answers.encode [{ members := List.replicate n {} }]] }
  | .serviceState service, state =>
    let services := (state.map fun s => { id := service, state := s : ServiceInfo }).toList
    { messages := [ServiceList.answers.encode [{ services }]] }
  | .watch, s =>
    { messages := s.events.filterMap fun (_, e) =>
        match e with
        | .ok event => some (Event.message.encode (.ofReport event))
        | .error _ => none }

end Rollout.Wire
