import Rollout.Run.Observation

/-!
# Preflight

Before a run changes anything, every record is held against the operation's policy. One obstacle stops
the whole run, unless the operator asked to leave such nodes out; a run without any node left is
stopped in either case.
-/

namespace Rollout

inductive Obstacle where
  | unobserved (e : Error)
  | notReady (readiness : Readiness)
  | stage (stage : Stage) (operation : Operation)

def Obstacle.message : Obstacle → String
  | unobserved e => e.message
  | notReady readiness => s!"node not ready {readiness.summary}"
  | stage s operation => s!"stage {s.text} not allowed for {operation.text}"

structure Policy where
  operation : Operation
  stages : List Stage
  requireReady : Bool := true
  skipProblematic : Bool := false
  deriving DecidableEq, Repr

namespace Policy

def apply : Policy := { operation := .apply, stages := [.maintenance, .booting, .running] }
def upgrade : Policy := { operation := .upgrade, stages := [.running] }
def bootstrap : Policy := { operation := .bootstrap, stages := [.maintenance] }

/-- What keeps a node out: a failed observation before readiness, readiness before the stage. -/
def obstacle? (p : Policy) (o : Observation) : Option Obstacle :=
  match o.failure with
  | some e => some (.unobserved e)
  | none =>
    if p.requireReady && !o.readiness.ready then some (.notReady o.readiness)
    else if !p.stages.contains o.stage then some (.stage o.stage p.operation)
    else none

def admits (p : Policy) (o : Observation) : Bool := (p.obstacle? o).isNone

def check (p : Policy) (records : List Observation) : Except Error (List Observation) :=
  let eligible := records.filter p.admits
  if eligible.isEmpty then .error .noHealthyNodes
  else if eligible.length < records.length && !p.skipProblematic then
    .error (.preflightFailed p.operation)
  else .ok eligible

end Policy

def allInMaintenance (records : List Observation) : Bool :=
  records.all (·.stage == .maintenance)

end Rollout
