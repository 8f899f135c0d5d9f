import Rollout.Rehearsal.Testbed

/-!
# The command line

Runs a command as a rehearsal: the files it names are read, changes stay in memory, and there is no node
to connect to.
-/

namespace Rollout.Rehearse

/-- The files a command may read besides the cluster file. -/
def filesOf (dir : String) (f : ClusterFile) : List String :=
  (FileStore.path dir :: f.nodes.flatMap (ConfigDirectory.candidates dir)).eraseDups

def helpersOf (f : ClusterFile) : List String := f.nodesProvider.toList ++ f.secretsProvider.toList

def content? (path : String) : IO (Option Bytes) := do
  try return some (← IO.FS.readBinFile path).toList
  catch _ => return none

def isThere (path : String) : IO Bool := do
  try
    let _ ← IO.FS.realPath path
    return true
  catch _ => return false

def load (s : Workstation) (runnable : Bool) (path : String) : IO Workstation := do
  match ← content? path with
  | some content => return s.addFile path content runnable
  | none => return s

/-- A workstation with what a command with these settings may read. -/
def workstation (s : Settings) : IO Workstation := do
  let start : Workstation := { root := Workstation.bare }
  let withDir := if ← isThere s.configDir then start.addDirectory s.configDir else start
  let withFile ← load withDir false s.config
  match ((← content? s.config).map ClusterFile.parse) with
  | some (.ok f) =>
    let withFiles ← (filesOf s.configDir f).foldlM (fun s path => load s false path) withFile
    (helpersOf f).foldlM (fun s path => load s true path) withFiles
  | _ => return withFile

/-- Does the action ask the operator even if no node answers? -/
def asks : Action → Bool
  | .reset options => options.confirm
  | _ => false

partial def readAll (input : IO.FS.Stream) (read : ByteArray) : IO ByteArray := do
  let more ← input.read 4096
  if more.isEmpty then return read else readAll input (read ++ more)

def environment : IO (List (String × String)) := do
  let names := ["HERD_LOG_LEVEL", "HERD_CONFIG", "HERD_CONFIG_DIR", "HERD_NODES"]
  names.filterMapM fun name => do return (← IO.getEnv name).map fun value => (name, value)

end Rollout.Rehearse

open Rollout in
def main (args : List String) : IO UInt32 := do
  let found ← Rehearse.environment
  let env := fun name => found.lookup name
  let (box, input) ← match Invocation.parse env args with
    | .error _ => pure ({ root := Workstation.bare }, ByteArray.empty)
    | .ok i => do
      let input ←
        if Rehearse.asks i.action then Rehearse.readAll (← IO.getStdin) .empty else pure .empty
      pure (← Rehearse.workstation i.settings, input)
  let start : Testbed := { workstation := box, fleet := { actors := [], reachable := [], image := "" } }
  let (end_, desk) := runCommand (Testbed.site env) .never args input.toList start
  IO.print end_.output
  (← IO.getStderr).write ⟨(desk.outside.workstation.errors ++ Bytes.ofText end_.errors).toArray⟩
  return UInt32.ofNat end_.code
