import Rollout.Console
import Rollout.Failure
import Rollout.Inventory.ClusterFile
import Rollout.Inventory.Directory
import Rollout.Run.Connector
import Rollout.Run.Work
import Rollout.Secrets.Stores

/-!
# A command at work

`Site` is everything a command can reach: the machine it runs on, the network and the nodes behind it.
`Desk` is a command at work: what it has read of its input, what it has written, and the secrets it has
loaded, which it loads once. `Desk.environment` is what a run sees of both.
-/

namespace Rollout

structure Site (σ : Type) where
  system : System σ
  network : Network σ
  /-- How a node serves a request that comes over a connection. -/
  serve : σ → Instant → (client : Client) → (r : Request) → Service σ (.request client r)
  /-- Which of several things that are ready at the same instant a watch takes first. -/
  favours : σ → Instant → Nat → Branch := fun _ _ _ => .timer
  /-- The variables of the program's environment. -/
  env : String → Option String
  /-- The seconds since the beginning of 1970. -/
  now : Nat
  /-- Makes the bundle of a cluster that has none yet. -/
  generate : σ → σ × Except Error Bundle
  /-- A certificate for a user, signed by an authority, and good until a time in seconds. -/
  issue : (authority : KeyPair) → (user : String) → (expiry : Nat) → KeyPair

structure Desk (σ : Type) where
  outside : σ
  bundle : Option Bundle := none
  input : Bytes := []
  output : String := ""
  /-- The calls of the run. -/
  journal : Journal := #[]

/-- A part of a command: what is done stays done if it fails. -/
abbrev Task (σ α : Type) := ExceptT Failure (StateM (Desk σ)) α

namespace Desk

variable {σ : Type}

def write (d : Desk σ) (text : String) : Desk σ := { d with output := d.output ++ text }

/-- The bundle of the cluster, loaded from the store or new. -/
def secrets (site : Site σ) (store : Store σ) (d : Desk σ) : Desk σ × Except Error Bundle :=
  let (outside, bundle, result) := Cache.get store site.generate d.outside d.bundle
  ({ d with outside, bundle }, result)

/-- The network, as seen by a command that also has secrets. -/
def network (net : Network σ) : Network (Desk σ) where
  probe d authority name :=
    let (outside, r) := net.probe d.outside authority name
    ({ d with outside }, r)
  dial d authority name credentials :=
    let (outside, r) := net.dial d.outside authority name credentials
    ({ d with outside }, r)

def atOnce {c : Call} (d : Desk σ) (finish : Desk σ → Desk σ × c.Result) : Service (Desk σ) c :=
  { begun := d, delay := some 0, finish }

def request (site : Site σ) (d : Desk σ) (now : Instant) (client : Client) (r : Request) :
    Service (Desk σ) (.request client r) :=
  let service := site.serve d.outside now client r
  { begun := { d with outside := service.begun }
    delay := service.delay
    finish := fun d =>
      let (outside, result) := service.finish d.outside
      ({ d with outside }, result) }

/-- Asks the operator; the answer is the next lines of the input. -/
def ask (question : String) (d : Desk σ) : Desk σ × Except Error Bool :=
  let x := Console.ask question d.input
  ({ d with input := x.unread, output := d.output ++ x.output },
    match x.answer with
    | some answer => .ok answer
    | none => .error (.prompt "failed to read answer: stream did not contain valid UTF-8"))

def environment (site : Site σ) (store : Store σ) (dir : String) : Environment (Desk σ) where
  serve d now call :=
    match call with
    | .connect node => d.atOnce fun d => (network site.network).connect (secrets site store) d node
    | .render node => d.atOnce fun d => (d, ConfigDirectory.config site.system d.outside dir node)
    | .request client r => request site d now client r
    | .display text => d.atOnce fun d => (d.write (Console.indent text ++ "\n"), .ok ())
    | .ask question => d.atOnce (ask question)
  favours d := site.favours d.outside

end Desk

/-! ## Tasks -/

/-- What a command is about: the declared cluster, the selected nodes, and where its files are. -/
structure Assignment where
  file : ClusterFile
  configDir : String
  /-- In visiting order. -/
  nodes : List Node

namespace Task

variable {σ α : Type}

def fail (f : Failure) : Task σ α := throw f

def print (text : String) : Task σ Unit := modify (·.write text)

def ofExcept : Except Failure α → Task σ α
  | .ok a => pure a
  | .error f => fail f

/-- Names what is being done in the failure of a task. -/
def during (context : String) (t : Task σ α) : Task σ α :=
  tryCatch t fun f => fail (.during context f)

/-- Something done outside. -/
def outside (f : σ → σ × Except Failure α) : Task σ α := do
  let d ← get
  let (outside, result) := f d.outside
  set { d with outside }
  ofExcept result

/-- Where the secrets of the cluster are. -/
def store (site : Site σ) (a : Assignment) : Store σ :=
  match a.file.secretsProvider with
  | some program => helperStore site.system program a.file.name
  | none => fileStore site.system a.configDir

def secrets (site : Site σ) (a : Assignment) : Task σ Bundle :=
  during "Failed to load secrets bundle" do
    let (d, result) := (← get).secrets site (store site a)
    set d
    match result with
    | .ok bundle => return bundle
    | .error e => fail (.run e)

/-- Does the work of a run over the selected nodes; there has to be one. Work that waits for ever ends
with an interrupt. -/
def work (site : Site σ) (signal : Signal) (a : Assignment) (w : Work (Desk σ) α) : Task σ α := do
  if a.nodes.isEmpty then fail .noNodes
  let setting : Setting (Desk σ) :=
    .over (Desk.environment site (store site a) a.configDir) a.file.cluster a.nodes signal
  let start : World (Desk σ) := { state := ← get }
  let (result, world) := (w.result? setting start).getD (.error .overdue, start)
  set { world.state with journal := world.journal }
  match result with
  | .ok r => return r
  | .error (.error e) => fail (.run e)
  | .error .overdue => fail (.run .cancelled)

end Task
end Rollout
