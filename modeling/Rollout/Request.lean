import Rollout.Bytes
import Rollout.Duration
import Rollout.Error
import Rollout.Machine
import Rollout.Node

/-!
# Requests

What a run asks of the world around it: of a node, once connected (`Request`), and of the connector,
the renderer and the operator (`Call`). Each request fixes the type of its reply.
-/

namespace Rollout

inductive RebootMode where
  | default
  | powercycle
  deriving DecidableEq, Repr

namespace RebootMode

def text : RebootMode → String
  | default => "default"
  | powercycle => "powercycle"

def parse (s : String) : Except Error RebootMode :=
  let name := Text.lower s
  if name = "default" then .ok default
  else if name = "powercycle" then .ok powercycle
  else .error (.config
    s!"invalid reboot mode {Text.quoted name} (expected default or powercycle)")

end RebootMode

structure Partition where
  label : String
  wipe : Bool
  deriving DecidableEq, Repr

/-- An empty list of partitions stands for the whole disk. -/
structure ResetRequest where
  graceful : Bool
  reboot : Bool
  partitions : List Partition
  deriving DecidableEq, Repr

structure UpgradeRequest where
  image : String
  preserve : Bool
  force : Bool
  rebootMode : RebootMode
  deriving DecidableEq, Repr

structure Extension where
  name : String
  version : String
  deriving DecidableEq, Repr

/-- What a node says to a configuration: how it takes effect and what changes. -/
structure ApplyReply where
  mode : String
  details : String
  warnings : List String
  deriving DecidableEq, Repr

/-- Something a node reports while it is watched. -/
inductive NodeEvent where
  | status (s : Status)
  | other (typeUrl : String)
  deriving DecidableEq, Repr

/-- The events of one subscription, each with the time since the one before it (the first since the
subscription). After the last the stream ends or stays silent. -/
structure EventStream where
  events : List (Duration × Except ApiError NodeEvent)
  closes : Bool

inductive Request where
  | status
  | extensions
  | osVersion
  | applyConfiguration (data : Bytes) (dryRun : Bool)
  | bootstrap
  | reset (request : ResetRequest)
  | upgrade (request : UpgradeRequest)
  | etcdMembers
  | serviceState (service : String)
  | watch
  deriving DecidableEq, Repr

@[reducible] def Request.Reply : Request → Type
  | status => Status
  | extensions => List Extension
  | osVersion => String
  | applyConfiguration _ _ => ApplyReply
  | bootstrap => Unit
  | reset _ => Unit
  | upgrade _ => Unit
  | etcdMembers => Nat
  | serviceState _ => Option String
  | watch => EventStream

/-- How a connection is protected. -/
inductive Channel where
  /-- Each side has shown a certificate the other trusts. -/
  | mutual
  /-- The node's certificate is not checked. -/
  | insecure
  deriving DecidableEq, Repr

/-- One connection to a node; no two connections of a run have the same number. -/
structure Client where
  node : Node
  number : Nat
  channel : Channel

inductive Call where
  | connect (node : Node)
  | render (node : Node)
  | request (client : Client) (request : Request)
  /-- Shows the operator a text. -/
  | display (text : String)
  /-- Asks the operator a question. -/
  | ask (question : String)

namespace Call

@[reducible] def Reply : Call → Type
  | connect _ => Channel
  | render _ => Bytes
  | request _ r => r.Reply
  | display _ => Unit
  | ask _ => Bool

@[reducible] def Failure : Call → Type
  | request _ _ => ApiError
  | display _ => Empty
  | _ => Error

abbrev Result (c : Call) : Type := Except c.Failure c.Reply

end Call
end Rollout
