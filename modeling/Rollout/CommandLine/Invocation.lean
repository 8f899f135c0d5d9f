import Rollout.CommandLine.Arguments
import Rollout.Run.Apply
import Rollout.Run.Reset
import Rollout.Run.Upgrade

/-!
# Invocations

What the operator asks for: an action with its options, and the settings common to all actions. A
setting may be given before or behind the action, the latter counting more, or in the environment, and
has a default.
-/

namespace Rollout

open Arguments

inductive ListingFormat where
  | table
  | yaml
  deriving DecidableEq, Repr

inductive Action where
  | apply (options : ApplyOptions)
  | bootstrap (confirm : Bool)
  /-- The way to reboot is still to be read. -/
  | upgrade (options : UpgradeOptions) (rebootMode : String)
  | reset (options : ResetOptions)
  | nodes (format : ListingFormat) (configsTo : Option String)
  | secrets
  | osconfig
  | kubeconfig (hours : UInt64)
  | clusterinfo
  | version

structure Settings where
  logLevel : String
  config : String
  configDir : String
  /-- The pattern that selects nodes. -/
  nodes : Option String := none

structure Invocation where
  settings : Settings
  action : Action

namespace Invocation

/-! ## Options -/

def isTruth (s : String) : Bool := s == "true" || s == "false"

/-- A number as 64 bits hold it, with a plus sign at most. -/
def readNumber? (s : String) : Option UInt64 :=
  let digits := match s.toList with
    | '+' :: rest => rest
    | cs => cs
  if digits.isEmpty || !digits.all Char.isDigit then none
  else
    let n := digits.foldl (fun n c => 10 * n + (c.toNat - 48)) 0
    if n < 18446744073709551616 then some (UInt64.ofNat n) else none

def isHours (s : String) : Bool := (readNumber? s).any (1 ≤ ·)

def flag (name : String) : Switch := { name, takes := .nothing }

def truth (name : String) : Switch := { name, takes := .perhaps, accepts := isTruth }

def path (name : String) : Switch := { name, accepts := (!·.isEmpty) }

/-- A setting that may come from the environment: its switch, the variable it may be in, and its default. -/
structure Common where
  switch : Switch
  source : Option String := none
  default : Option String := none

def common : List Common :=
  [⟨{ name := "log-level" }, some "HERD_LOG_LEVEL", some "info"⟩,
   ⟨{ name := "log-format", accepts := fun s => s == "text" || s == "json" }, none, some "text"⟩,
   ⟨path "config", some "HERD_CONFIG", some "herd.yaml"⟩,
   ⟨path "config-dir", some "HERD_CONFIG_DIR", some "."⟩,
   ⟨{ name := "nodes" }, some "HERD_NODES", none⟩]

def commonSwitches : List Switch := common.map (·.switch)

/-- The options of an action, and the action they make. -/
structure Form where
  switches : List Switch := []
  make : Found → Action

def isSet (found : Found) (name : String) (default : Bool) : Bool :=
  ((found.lookup name).map (· == "true")).getD default

def applyForm : Form where
  switches :=
    [truth "confirm", flag "dry-run", flag "auto-bootstrap", flag "skip-problematic-nodes",
     flag "skip-post-apply-checks", flag "allow-not-ready"]
  make found := .apply
    { dryRun := isSet found "dry-run" false
      confirm := isSet found "confirm" true
      skipPostApplyChecks := isSet found "skip-post-apply-checks" false
      skipProblematic := isSet found "skip-problematic-nodes" false
      allowNotReady := isSet found "allow-not-ready" false
      autoBootstrap := isSet found "auto-bootstrap" false }

def upgradeForm : Form where
  switches :=
    [truth "confirm", flag "dry-run", flag "force", truth "preserve", { name := "reboot-mode" },
     flag "skip-problematic-nodes"]
  make found := .upgrade
    { dryRun := isSet found "dry-run" false
      confirm := isSet found "confirm" true
      force := isSet found "force" false
      preserve := isSet found "preserve" true
      skipProblematic := isSet found "skip-problematic-nodes" false }
    ((found.lookup "reboot-mode").getD "default")

def resetForm : Form where
  switches := [truth "confirm", truth "full", flag "graceful", flag "shutdown"]
  make found := .reset
    { full := isSet found "full" true
      graceful := isSet found "graceful" false
      shutdown := isSet found "shutdown" false
      confirm := isSet found "confirm" true }

def nodesForm : Form where
  switches :=
    [{ name := "output", letter := some 'o', accepts := fun s => s == "table" || s == "yaml" },
     path "machineconfig-output"]
  make found := .nodes (if found.lookup "output" == some "yaml" then .yaml else .table)
    (found.lookup "machineconfig-output")

def kubeconfigForm : Form where
  switches := [{ name := "validity-hours", accepts := isHours }]
  make found := .kubeconfig (((found.lookup "validity-hours").bind readNumber?).getD 12)

def form? (name : String) : Option Form :=
  match name with
  | "apply" => some applyForm
  | "bootstrap" => some ⟨[truth "confirm"], fun found => .bootstrap (isSet found "confirm" true)⟩
  | "upgrade" => some upgradeForm
  | "reset" => some resetForm
  | "nodes" => some nodesForm
  | "secrets" => some ⟨[], fun _ => .secrets⟩
  | "osconfig" | "talosconfig" => some ⟨[], fun _ => .osconfig⟩
  | "kubeconfig" => some kubeconfigForm
  | "clusterinfo" => some ⟨[], fun _ => .clusterinfo⟩
  | "version" => some ⟨[], fun _ => .version⟩
  | _ => none

/-! ## Reading -/

/-- A common setting, with what was found before and behind the action. -/
def settle (env : String → Option String) (before behind : Found) (c : Common) :
    Except Refusal (Option String) :=
  let name := c.switch.name
  let given := (behind.lookup name).or (before.lookup name)
  match c.source.bind env with
  | none => .ok (given.or c.default)
  | some value =>
    if !c.switch.accepts value && !((behind.lookup name).isSome && (before.lookup name).isSome) then
      .error .usage
    else .ok (given.or (some value))

/-- The settings of a command line; `env` is the environment. -/
def settingsOf (env : String → Option String) (before behind : Found) :
    Except Refusal Settings := do
  let values ← common.mapM fun c => return (c.switch.name, ← settle env before behind c)
  let value (name : String) : Option String := (values.lookup name).join
  return {
    logLevel := (value "log-level").getD ""
    config := (value "config").getD ""
    configDir := (value "config-dir").getD ""
    nodes := value "nodes" }

/-- Help on an action is asked for with the action's name at most. -/
def readHelp (args : List String) : Refusal :=
  match args with
  | [] => .help
  | name :: _ => if (form? name).isSome || name == "help" then .help else .usage

def parse (env : String → Option String) (args : List String) :
    Except Refusal Invocation := do
  match ← options commonSwitches true args [] with
  | (_, []) => throw .usage
  | (before, name :: rest) =>
    match form? name with
    | none => throw (if name == "help" then readHelp rest else .usage)
    | some form =>
      let found ← onlyOptions (commonSwitches ++ form.switches) rest
      return { settings := ← settingsOf env before found, action := form.make found }

end Invocation
end Rollout
