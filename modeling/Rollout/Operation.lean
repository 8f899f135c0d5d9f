/-!
# Operations

What a run can do to a fleet.
-/

namespace Rollout

inductive Operation where
  | apply
  | bootstrap
  | upgrade
  | reset
  deriving DecidableEq, Repr

def Operation.text : Operation → String
  | apply => "apply"
  | bootstrap => "bootstrap"
  | upgrade => "upgrade"
  | reset => "reset"

end Rollout
