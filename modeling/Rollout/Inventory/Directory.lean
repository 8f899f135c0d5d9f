import Rollout.Files.System
import Rollout.Node

/-!
# The configuration directory

Holds one configuration for each node or each role. A node's own comes first.
-/

namespace Rollout

variable {σ : Type}

namespace ConfigDirectory

/-- The directory has to be one. -/
def check (sys : System σ) (s : σ) (dir : String) : Except Failure Unit :=
  match sys.isDirectory s dir with
  | .ok true => .ok ()
  | .ok false => .error (.message s!"config path is not a directory: {dir}")
  | .error .notFound => .error (.message s!"config directory does not exist: {dir}")
  | .error fault => .error (.during s!"Failed to access config directory {dir}" (.file fault))

/-- Where a node's configuration may be. -/
def candidates (dir : String) (node : Node) : List String :=
  [joinPath (joinPath dir "node") s!"{node.host}.yaml", joinPath dir s!"{node.role.text}.yaml"]

/-- The first file that is there. -/
def firstOf (sys : System σ) (s : σ) (dir : String) (node : Node) :
    List String → Except Error Bytes
  | [] => .error (.render s!"no configuration for {node.host} in {dir}")
  | path :: rest =>
    match sys.read s path with
    | .ok content => .ok content
    | .error .notFound => firstOf sys s dir node rest
    | .error fault => .error (.render s!"read {path}: {fault.message}")

def config (sys : System σ) (s : σ) (dir : String) (node : Node) : Except Error Bytes :=
  firstOf sys s dir node (candidates dir node)

end ConfigDirectory
end Rollout
