import Rollout.Run.Work

/-!
# Observations

What a run knows of a node. Observing is five calls in a fixed order; the first that fails ends it, and
what was read before stays in the record. A record therefore has a configuration or a failure, never
both, and the failure names its step.
-/

namespace Rollout

structure Observation where
  node : Node
  stage : Stage := .unknown
  readiness : Readiness := {}
  schematic : String := ""
  osVersion : String := ""
  config : Option Bytes := none
  failure : Option Error := none

namespace Observation

def host (o : Observation) : String := o.node.host

/-- The extension whose version is the schematic a node was installed from. -/
def schematicExtension : String := "schematic"

/-- The schematic of a node without that extension: no customization. -/
def defaultSchematic : String :=
  "376567988ad370138ad8b2698212367b8edcb69b5fd68c80be1f2ec7d603b4ba"

def schematicOf (extensions : List Extension) : String :=
  match extensions.find? (·.name == schematicExtension) with
  | some e => e.version
  | none => defaultSchematic

/-- The next thing to find out. -/
inductive Step where
  | connect
  | status (client : Client)
  | extensions (client : Client)
  | osVersion (client : Client)
  | render

namespace Step

/-- The step's name in the failure it causes. -/
def text : Step → String
  | connect => "connect"
  | status _ => "read machine status"
  | extensions _ => "list extensions"
  | osVersion _ => "read version"
  | render => "render configuration"

@[reducible] def call (node : Node) : Step → Call
  | connect => .connect node
  | status client => .request client .status
  | extensions client => .request client .extensions
  | osVersion client => .request client .osVersion
  | render => .render node

/-- How many calls there are from this step on. -/
def remaining : Step → Nat
  | connect => 5
  | status _ => 4
  | extensions _ => 3
  | osVersion _ => 2
  | render => 1

theorem remaining_pos (s : Step) : 0 < s.remaining := by cases s <;> simp [remaining]

end Step

/-- The record after a step, and the step that follows; none if observing has ended. -/
abbrev Advance := Observation × Option Step

def failed (o : Observation) (s : Step) (e : Error) : Advance :=
  ({ o with failure := some (.gather s.text e) }, none)

/-- Takes in the answer of a step. A connection made gets the number `number`. -/
def advance (o : Observation) (number : Nat) :
    (s : Step) → (s.call o.node).Result → Advance
  | .connect, .error e => o.failed .connect e
  | .connect, .ok channel => (o, some (.status ⟨o.node, number, channel⟩))
  | .status c, .error e => o.failed (.status c) (.api e)
  | .status c, .ok s => ({ o with stage := s.stage, readiness := s.readiness }, some (.extensions c))
  | .extensions c, .error e => o.failed (.extensions c) (.api e)
  | .extensions c, .ok es => ({ o with schematic := schematicOf es }, some (.osVersion c))
  | .osVersion c, .error e => o.failed (.osVersion c) (.api e)
  | .osVersion _, .ok v => ({ o with osVersion := v }, some .render)
  | .render, .error e => o.failed .render e
  | .render, .ok config => ({ o with config := some config }, none)

/-- Is the answer to this step a new connection? -/
def connected (o : Observation) : (s : Step) → (s.call o.node).Result → Bool
  | .connect, .ok _ => true
  | _, _ => false

theorem remaining_advance (o : Observation) (number : Nat) (s : Step) (r : (s.call o.node).Result)
    (next : Step) (h : (o.advance number s r).2 = some next) : next.remaining + 1 = s.remaining := by
  cases s <;> cases r <;> simp [advance, failed] at h <;> subst h <;> rfl

end Observation
end Rollout
