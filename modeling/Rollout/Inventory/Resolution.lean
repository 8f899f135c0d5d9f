import Rollout.Files.System
import Rollout.Inventory.ClusterFile
import Rollout.Pattern.Reading

/-!
# Which nodes a command is about

The declared nodes and those that a helper program lists, no host twice, as far as the operator selects
them, in visiting order.
-/

namespace Rollout

variable {σ : Type}

abbrev Selector := String → Bool

/-- The selection a pattern makes. Without a pattern, or with an empty one, there is none. -/
def selectorOf (pattern : Option String) : Except Failure (Option Selector) :=
  match pattern with
  | none => .ok none
  | some p =>
    if p.isEmpty then .ok none
    else match Pattern.parse p with
      | .ok compiled => .ok (some compiled.selects)
      | .error problem =>
        .error (.during s!"Invalid nodes selector regex {Text.quoted p}" (.pattern problem))

/-- The first host that stands a second time. -/
def repeatedHost? (seen : List String) : List Node → Option String
  | [] => none
  | n :: rest => if seen.contains n.host then some n.host else repeatedHost? (n.host :: seen) rest

/-- The nodes of a command out of all declared and listed ones. -/
def resolve (selector : Option Selector) (nodes : List Node) : Except Failure (List Node) :=
  match repeatedHost? [] nodes with
  | some host => .error (.message s!"node {host} is declared more than once")
  | none =>
    .ok (Node.inOrder (match selector with
      | some selects => nodes.filter fun n => selects n.host
      | none => nodes))

namespace ClusterFile

def listedNodes (sys : System σ) (s : σ) (f : ClusterFile) : σ × Except Failure (List Node) :=
  match f.nodesProvider with
  | none => (s, .ok [])
  | some program =>
    match sys.runHelper s program ["nodes", f.name] none with
    | (s, .error fault) => (s, .error (.during "Failed to load nodes from provider" (.helper fault)))
    | (s, .ok output) => (s, parseListedNodes output)

def resolveNodes (sys : System σ) (s : σ) (f : ClusterFile) (selector : Option Selector) :
    σ × Except Failure (List Node) :=
  match listedNodes sys s f with
  | (s, .error e) => (s, .error e)
  | (s, .ok listed) => (s, resolve selector (f.nodes ++ listed))

end ClusterFile
end Rollout
