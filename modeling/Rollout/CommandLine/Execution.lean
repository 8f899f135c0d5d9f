import Rollout.CommandLine.Desk
import Rollout.CommandLine.Report
import Rollout.Inventory.Resolution

/-!
# Carrying out commands

Every command but `version` first checks its settings, reads the cluster file and finds out which nodes
it is about. What is printed before a failure stays printed.
-/

namespace Rollout

namespace Task

variable {σ : Type}

def programVersion : String := "0.1.0"

/-- The nodes a command is about; the settings are checked on the way. -/
def assignment (site : Site σ) (s : Settings) : Task σ Assignment := do
  outside fun o => (o, ConfigDirectory.check site.system o s.configDir)
  let content ← during s!"Failed to read cluster file {s.config}" <| outside fun o =>
    (o, match site.system.read o s.config with
      | .error fault => .error (.file fault)
      | .ok b => if (b.text?).isSome then .ok b else .error .noText)
  let file ← during s!"Invalid cluster file {s.config}" (ofExcept (ClusterFile.parse content))
  let selector ← ofExcept (selectorOf s.nodes)
  let nodes ← outside fun o => file.resolveNodes site.system o selector
  return { file, configDir := s.configDir, nodes }

/-! ## Client certificates -/

/-- The seconds of so many hours, in 64 bits. -/
def validity (hours : UInt64) : UInt64 := hours * 3600

/-- The last second of the year 9999. -/
def lastSecond : Nat := 253402300799

/-- The time so many seconds from now, if a calendar has it. -/
def expiry? (now : Nat) (validity : UInt64) : Option Nat :=
  let time := now + validity.toNat
  if time ≤ lastSecond then some time else none

/-- The key and the certificate of the authority have to be readable. -/
def readAuthority (b : Bundle) : Except Failure Unit :=
  if ((Pem.firstObject? b.k8s.key).bind Der.privateKey?).isNone then
    .error (.run (.secrets "read Kubernetes CA key: Could not parse key pair"))
  else if ((Pem.firstObject? b.k8s.crt).bind Der.certificateKey?).isNone then
    .error (.run (.secrets "read Kubernetes CA certificate: Could not parse certificate"))
  else .ok ()

def kubernetesClient (site : Site σ) (b : Bundle) (user : String) (validity : UInt64) :
    Except Failure KeyPair := do
  readAuthority b
  match expiry? site.now validity with
  | none => .error .outOfTime
  | some time => .ok (site.issue b.k8s user time)

/-! ## Commands -/

/-- Writes the configurations that were rendered, each to a file named after its node. Gives their
number. -/
def writeConfigs (site : Site σ) (dir : String) : List Observation → Task σ Nat
  | [] => return 0
  | o :: rest =>
    match o.config with
    | none => writeConfigs site dir rest
    | some config => do
      let path := joinPath dir s!"{o.host}.yaml"
      during s!"Failed to open {path}" <| outside fun s =>
        let (s, r) := site.system.write s path config
        (s, r.mapError .file)
      return (← writeConfigs site dir rest) + 1

def saveConfigs (site : Site σ) (dir : String) (records : List Observation) : Task σ Unit := do
  during s!"Failed to create {dir}" <| outside fun s =>
    let (s, r) := site.system.makeDirectory s dir
    (s, r.mapError .file)
  let n ← writeConfigs site dir records
  print (Report.info s!"Wrote {n} machine configuration(s) to {dir}")

def act (site : Site σ) (signal : Signal) (a : Assignment) : Action → Task σ Unit
  | .apply options => do
    print (Report.apply options.dryRun (← work site signal a (Work.apply options)))
  | .bootstrap confirm => do
    print (Report.bootstrap (← work site signal a (Work.bootstrap confirm)))
  | .upgrade options rebootMode => do
    match RebootMode.parse rebootMode with
    | .error e => fail (.run e)
    | .ok rebootMode =>
      let outcomes ← work site signal a (Work.upgrade { options with rebootMode })
      print (Report.upgrade options.dryRun outcomes)
  | .reset options => do
    print (Report.reset (← work site signal a (Work.reset options)))
  | .nodes format configsTo => do
    let records ← work site signal a Work.gather
    print (Report.nodes format records)
    match configsTo with
    | some dir => saveConfigs site dir records
    | none => return ()
  | .secrets => do print (← secrets site a).yaml
  | .osconfig => do
    print (Documents.clientConfig a.file.name a.nodes (← secrets site a)).write
  | .kubeconfig hours => do
    let b ← secrets site a
    let client ← during "Failed to issue client certificate" <|
      ofExcept (kubernetesClient site b Documents.kubeUser (validity hours))
    print (Documents.kubeconfig a.file.name a.file.endpoint b client).write
  | .clusterinfo => do
    print (Documents.clusterInfo a.file a.nodes (← secrets site a)).write
  | .version => return ()

def perform (site : Site σ) (signal : Signal) (i : Invocation) : Task σ Unit := do
  if (LogLevel.parse? i.settings.logLevel).isNone then fail (.logLevel i.settings.logLevel)
  match i.action with
  | .version => print s!"herd {programVersion}\n"
  | action => act site signal (← assignment site i.settings) action

end Task

/-! ## From arguments to outputs -/

/-- How the program ends, and what it has written. -/
structure Conclusion where
  code : Nat
  output : String := ""
  errors : String := ""

namespace Conclusion

def usage : String := "Usage: herd [OPTIONS] <COMMAND>\n"

def ofRefusal : Arguments.Refusal → Conclusion
  | .usage => { code := 2, errors := usage }
  | .help => { code := 0, output := usage }
  | .version => { code := 0, output := s!"herd {Task.programVersion}\n" }

def ofResult (output : String) : Except Failure Unit → Conclusion
  | .ok () => { code := 0, output }
  | .error f =>
    match f.root with
    -- A program that ends at once does not tell what was being done.
    | .outOfTime => { code := 101, output, errors := ": ".intercalate f.root.messages ++ "\n" }
    | _ => { code := 1, output, errors := Report.failure f }

end Conclusion

/-- The program: what it does with its arguments and its input. -/
def runCommand {σ : Type} (site : Site σ) (signal : Signal) (args : List String) (input : Bytes)
    (outside : σ) : Conclusion × Desk σ :=
  match Invocation.parse site.env args with
  | .error r => (.ofRefusal r, { outside, input })
  | .ok i =>
    let (result, desk) := ((Task.perform site signal i).run { outside, input : Desk σ } : Id _)
    (.ofResult desk.output result, desk)

end Rollout
