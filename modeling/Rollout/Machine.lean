/-!
# Machine status

The stage a machine is in, its readiness, and when the two together count as healthy: running and
ready, nothing else.
-/

namespace Rollout

inductive Stage where
  | unknown
  | booting
  | installing
  | maintenance
  | running
  | rebooting
  | shuttingDown
  | resetting
  | upgrading
  deriving DecidableEq, Repr, Inhabited

namespace Stage

def text : Stage → String
  | unknown => "unknown"
  | booting => "booting"
  | installing => "installing"
  | maintenance => "maintenance"
  | running => "running"
  | rebooting => "rebooting"
  | shuttingDown => "shuttingDown"
  | resetting => "resetting"
  | upgrading => "upgrading"

/-- Separators and the case of ASCII letters say nothing in a stage's name. -/
def normalize (s : String) : String :=
  String.ofList ((s.toList.filter fun c => !(c == '_' || c == '-' || c == ' ')).map Char.toLower)

/-- The stage a name stands for; a name that is not known is the stage `unknown`. -/
def ofText (s : String) : Stage :=
  match normalize s with
  | "booting" => booting
  | "installing" => installing
  | "maintenance" => maintenance
  | "running" => running
  | "rebooting" => rebooting
  | "shuttingdown" => shuttingDown
  | "shutdown" => shuttingDown
  | "resetting" => resetting
  | "upgrading" => upgrading
  | _ => unknown

end Stage

/-- A condition that keeps a machine from being ready. -/
structure Condition where
  name : String
  reason : String
  deriving DecidableEq, Repr

structure Readiness where
  ready : Bool := false
  unmet : List Condition := []
  deriving DecidableEq, Repr

/-- The unmet conditions on one line. -/
def Readiness.summary (r : Readiness) : String :=
  "[" ++ ", ".intercalate (r.unmet.map fun c => c.name ++ ": " ++ c.reason) ++ "]"

structure Status where
  stage : Stage := .unknown
  readiness : Readiness := {}
  deriving DecidableEq, Repr

namespace Status

/-- Why the machine is not healthy; nothing if it is running and ready. -/
def unhealthy? (s : Status) : Option String :=
  if s.stage ≠ .running then some ("machine not in stage running: " ++ s.stage.text)
  else if !s.readiness.ready then some s!"machine not ready ({s.readiness.summary})"
  else none

theorem unhealthy?_eq_none_iff (s : Status) :
    s.unhealthy? = none ↔ s.stage = .running ∧ s.readiness.ready = true := by
  unfold unhealthy?
  by_cases h : s.stage = .running <;> cases hr : s.readiness.ready <;> simp [h]

end Status
end Rollout
