import Rollout.Error
import Rollout.Files.Exit
import Rollout.Files.Fault
import Rollout.LogLevel
import Rollout.Yaml.Mark

/-!
# Failures of a command

Why a command ends without having done its work. A failure is a cause, with what was being done when it
arose around it; `messages` gives all texts, outermost first.
-/

namespace Rollout

/-- A helper program could not be run, or failed. -/
inductive HelperFault where
  | unusable (action binary : String) (fault : Fault)
  | failed (command : String) (status : ExitStatus)
  deriving DecidableEq, Repr

def HelperFault.message : HelperFault → String
  | unusable action binary fault => s!"failed to {action} {binary}: {fault.message}"
  | failed command status => s!"{command} exited with {status.text}"

inductive Failure where
  | run (e : Error)
  | yaml (problem : Yaml.Problem)
  /-- A selection pattern that cannot be read. -/
  | pattern (problem : String)
  | logLevel (given : String)
  | noNodes
  | helper (fault : HelperFault)
  | file (fault : Fault)
  | noText
  /-- A time that no calendar has ends the program at once. -/
  | outOfTime
  | message (text : String)
  /-- What was being done, and why it failed. -/
  | during (context : String) (cause : Failure)
  deriving DecidableEq, Repr

namespace Failure

def messages : Failure → List String
  | run e => [e.message]
  | yaml problem => [problem.message]
  | pattern problem => [problem]
  | logLevel given => [LogLevel.complaint given]
  | noNodes => ["no nodes selected"]
  | helper fault => [fault.message]
  | file fault => [fault.message]
  | noText => ["stream did not contain valid UTF-8"]
  | outOfTime => ["resulting value is out of range"]
  | message text => [text]
  | during context cause => context :: cause.messages

/-- The cause without its circumstances. -/
def root : Failure → Failure
  | during _ cause => cause.root
  | cause => cause

end Failure
end Rollout
