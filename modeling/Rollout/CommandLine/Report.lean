import Rollout.CommandLine.Documents
import Rollout.CommandLine.Invocation
import Rollout.Failure
import Rollout.Run.Bootstrap
import Rollout.Text.Table

/-!
# Reports

What a command tells the operator when it is done: a table of results and a line that sums up, or why it
failed and what may help.
-/

namespace Rollout.Report

def success (text : String) : String := "Success: " ++ text ++ "\n"

def info (text : String) : String := "Info: " ++ text ++ "\n"

def warning (text : String) : String := "Warning: " ++ text ++ "\n"

def table (header : List String) (rows : List (List String)) : String :=
  if rows.isEmpty then "No items found.\n" else (Text.Table.mk header rows).text ++ "\n"

def results (rows : List (String × String)) : String :=
  table ["Node", "Result"] (rows.map fun (host, result) => [host, result])

def applyResult : ApplyOutcome → String
  | .unchanged => "unchanged"
  | .changed => "applied"
  | .skipped => "skipped"

def applied (outcomes : List (String × ApplyOutcome)) : String :=
  results (outcomes.map fun (host, o) => (host, applyResult o))

def etcd : EtcdOutcome → String
  | .initiated => success "etcd bootstrap initiated"
  | .alreadyBootstrapped => info "etcd is already bootstrapped"
  | .noControlPlane => info "No control-plane node selected, bootstrap skipped"

def apply (dryRun : Bool) (r : ApplyReport) : String :=
  if dryRun then
    info s!"Dry run finished for {r.outcomes.length} node(s), nothing was applied"
  else
    applied r.outcomes ++ success s!"Applied {r.changed} node(s), skipped {r.skipped}" ++
      (match r.etcd with
        | some outcome => etcd outcome
        | none => "")

def bootstrap (r : BootstrapReport) : String := applied r.outcomes ++ etcd r.etcd

def upgradeResult : UpgradeOutcome → String
  | .upToDate => "up to date"
  | .pending => "upgrade pending"
  | .skipped => "skipped"
  | .upgraded => "upgraded"

def upgrade (dryRun : Bool) (outcomes : List (String × UpgradeOutcome)) : String :=
  results (outcomes.map fun (host, o) => (host, upgradeResult o)) ++
    if dryRun then "" else success s!"Upgraded {outcomes.countP (·.2 == .upgraded)} node(s)"

def reset (t : ResetTally) : String :=
  let summary := s!"Reset {t.success} of {t.total} node(s): {t.skipped} skipped, {t.failed} failed"
  if 0 < t.failed then warning summary else success summary

def nodes (format : ListingFormat) (records : List Observation) : String :=
  let rows := records.map NodeRow.of
  match format with
  | .table => table NodeRow.header (rows.map NodeRow.cells)
  | .yaml => (Yaml.Output.list (rows.map NodeRow.toYaml)).write

/-! ## Failures -/

def hint (f : Failure) : Option String :=
  match f.root with
  | .noNodes => some "Check the nodes in the cluster file and the --nodes selector."
  | .run (.preflightFailed _) =>
    some "Use --skip-problematic-nodes to continue with the healthy nodes."
  | .run (.connect _ _) => some "Check that the node is reachable on the management port."
  | _ => none

/-- What a failure is told as. -/
def failure (f : Failure) : String :=
  "Error: " ++ ": ".intercalate f.messages ++ "\n" ++
    (match hint f with
      | some text => "\nHint: " ++ text ++ "\n"
      | none => "")

end Rollout.Report
