import Rollout.Operation
import Rollout.Text.Quoted

/-!
# Errors

What can go wrong with one node's interface (`ApiError`) and with a run (`Error`), by cause. The
wording of each is given once, in `message`.
-/

namespace Rollout

inductive ApiError where
  /-- The node answered with a status other than OK. -/
  | status (code : Nat) (message : String)
  /-- The answer could not be understood. -/
  | decode (what reason : String)
  | unavailable (reason : String)
  deriving DecidableEq, Repr

def ApiError.message : ApiError → String
  | status _ message => "rpc error: " ++ message
  | decode what reason => s!"failed to decode {what}: {reason}"
  | unavailable reason => "node unavailable: " ++ reason

inductive Error where
  | config (reason : String)
  | connect (endpoint reason : String)
  /-- The credentials for a node could not be put together. -/
  | client (host reason : String)
  | api (error : ApiError)
  /-- A step of observing a node failed. -/
  | gather (step : String) (cause : Error)
  | secrets (reason : String)
  | render (reason : String)
  | prompt (reason : String)
  | noHealthyNodes
  | preflightFailed (operation : Operation)
  | apply (host : String) (error : ApiError)
  | stabilize (host reason : String)
  | bootstrap (reason : String)
  | upgrade (host : String) (error : ApiError)
  | installerImage (image : String)
  | cancelled
  deriving DecidableEq, Repr, Inhabited

namespace Error

def message : Error → String
  | config reason => "invalid configuration: " ++ reason
  | connect endpoint reason => s!"failed to connect to {endpoint}: {reason}"
  | client host reason => s!"failed to build client for {host}: {reason}"
  | api error => error.message
  | gather step cause => s!"{step}: {cause.message}"
  | secrets reason => "secrets: " ++ reason
  | render reason => "render: " ++ reason
  | prompt reason => "prompt: " ++ reason
  | noHealthyNodes => "no healthy nodes available to process"
  | preflightFailed operation => s!"aborting {operation.text} due to errors with some nodes"
  | apply host error => s!"failed to apply configuration to {host}: {error.message}"
  | stabilize host reason => s!"node {host} did not stabilize: {reason}"
  | bootstrap reason => "bootstrap failed: " ++ reason
  | upgrade host error => s!"failed to upgrade {host}: {error.message}"
  | installerImage image =>
    "invalid installer image " ++ Text.quoted image ++
      ": expected <registry>/<schematic>:<version>"
  | cancelled => "operation cancelled"

def isCancelled : Error → Bool
  | cancelled => true
  | _ => false

end Error
end Rollout
