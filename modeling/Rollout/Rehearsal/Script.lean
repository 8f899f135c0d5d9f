import Rollout.Request

/-!
# Scripted nodes

A node that answers from a script, for rehearsing a run without machines. For each kind of call the
script has a list of cues; every call takes the next one and the last one stays. A cue may come late,
may be a failure, and may replace parts of the script once its call has succeeded. A kind of call
without cues gets the answer of a healthy node with nothing to change.
-/

namespace Rollout

/-- The kinds of calls a script tells apart. -/
inductive Part where
  | connect
  | status
  | extensions
  | version
  | dryRun
  | commit
  | bootstrap
  | reset
  | upgrade
  | members
  | service
  | watch
  | render
  deriving DecidableEq, Repr

namespace Part

def text : Part → String
  | connect => "connect"
  | status => "status"
  | extensions => "extensions"
  | version => "version"
  | dryRun => "dry_run"
  | commit => "commit"
  | bootstrap => "bootstrap"
  | reset => "reset"
  | upgrade => "upgrade"
  | members => "members"
  | service => "service"
  | watch => "watch"
  | render => "render"

def all : List Part :=
  [connect, status, extensions, version, dryRun, commit, bootstrap, reset, upgrade, members, service,
    watch, render]

def ofText? (s : String) : Option Part := all.find? (·.text == s)

def ofRequest : Request → Part
  | .status => status
  | .extensions => extensions
  | .osVersion => version
  | .applyConfiguration _ true => dryRun
  | .applyConfiguration _ false => commit
  | .bootstrap => bootstrap
  | .reset _ => reset
  | .upgrade _ => upgrade
  | .etcdMembers => members
  | .serviceState _ => service
  | .watch => watch

end Part

/-- A failure in a script: of the connection or the renderer, or of a request. -/
inductive Mishap where
  | run (e : Error)
  | api (e : ApiError)
  deriving DecidableEq, Repr

/-- What a node answers, by the kind of call; the other fields do not matter. -/
structure Line where
  status : Status := ⟨.running, ⟨true, []⟩⟩
  extensions : List Extension := []
  version : String := "1.9.2"
  mode : String := "auto"
  /-- Without details a node says whether the configuration is the one it has. -/
  details : Option String := none
  warnings : List String := []
  members : Nat := 0
  service : Option String := none
  stream : EventStream := ⟨[], false⟩
  config : Option Bytes := none

inductive Cue where
  | mk (delay : Duration) (mishap : Option Mishap) (line : Line)
      (followUps : List (Part × List Cue))

namespace Cue

def delay : Cue → Duration
  | mk d _ _ _ => d

def mishap : Cue → Option Mishap
  | mk _ m _ _ => m

def line : Cue → Line
  | mk _ _ l _ => l

def followUps : Cue → List (Part × List Cue)
  | mk _ _ _ f => f

/-- The cue of a call that the script does not mention. -/
def usual : Cue := mk 0 none {} []

instance : Inhabited Cue := ⟨usual⟩

end Cue

/-- The cues of one node, by kind of call. -/
abbrev Script := List (Part × List Cue)

namespace Script

def cues (s : Script) (p : Part) : List Cue := (s.lookup p).getD []

def replace (s : Script) (p : Part) (cues : List Cue) : Script :=
  (p, cues) :: s.filter (·.1 ≠ p)

/-- The next cue for a kind of call, and the script without it unless it is the last. -/
def take (s : Script) (p : Part) : Cue × Script :=
  match s.cues p with
  | [] => (.usual, s)
  | [cue] => (cue, s)
  | cue :: rest => (cue, s.replace p rest)

/-- The script after a call has succeeded. -/
def follow (s : Script) (cue : Cue) : Script :=
  cue.followUps.foldl (fun s f => s.replace f.1 f.2) s

end Script

namespace Line

def accepted : String := "Applied configuration without a reboot"

/-- What is said about a configuration, the node having `applied`. -/
def detailsFor (l : Line) (data : Bytes) (dryRun : Bool) (applied : Option Bytes) : String :=
  match l.details with
  | some details => details
  | none =>
    if !dryRun then accepted
    else if applied == some data then accepted ++ "\nNo changes."
    else "Config diff:\n\n+ machine: \x7b\x7d"

def reply (l : Line) (applied : Option Bytes) : (r : Request) → r.Reply
  | .status => l.status
  | .extensions => l.extensions
  | .osVersion => l.version
  | .applyConfiguration data dryRun => ⟨l.mode, l.detailsFor data dryRun applied, l.warnings⟩
  | .bootstrap => ()
  | .reset _ => ()
  | .upgrade _ => ()
  | .etcdMembers => l.members
  | .serviceState _ => l.service
  | .watch => l.stream

end Line

/-- A node of a rehearsal. -/
structure Actor where
  script : Script := []
  /-- The configuration the node has. -/
  applied : Option Bytes := none

namespace Actor

/-- What the node has applied once a request has succeeded. -/
def appliedAfter (a : Actor) : Request → Option Bytes
  | .applyConfiguration data false => some data
  | _ => a.applied

/-- The node after the answer to a request, and the answer. -/
def answer (a : Actor) (cue : Cue) (r : Request) : Actor × Except ApiError r.Reply :=
  match cue.mishap with
  | some (.api e) => (a, .error e)
  | some (.run e) => (a, .error (.unavailable e.message))
  | none =>
    (⟨a.script.follow cue, a.appliedAfter r⟩, .ok (cue.line.reply a.applied r))

end Actor
end Rollout
