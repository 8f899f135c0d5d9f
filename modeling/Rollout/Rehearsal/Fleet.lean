import Rollout.Rehearsal.Script
import Rollout.Run.Work

/-!
# A rehearsal fleet

An environment of scripted nodes and a scripted operator. A host that is not part of the fleet refuses
connections; a host without a scripted configuration gets a small one with the fleet's image; an
operator who has no more answers says yes.
-/

namespace Rollout

structure Rehearsal where
  actors : List (String × Actor)
  /-- The hosts that can be connected to. -/
  reachable : List String
  answers : List (Except Error Bool) := []
  image : String
  deriving Inhabited

namespace Rehearsal

def actor (s : Rehearsal) (host : String) : Actor := (s.actors.lookup host).getD {}

def setActor (s : Rehearsal) (host : String) (a : Actor) : Rehearsal :=
  { s with actors := (host, a) :: s.actors.filter (·.1 ≠ host) }

def take (s : Rehearsal) (host : String) (p : Part) : Cue × Rehearsal :=
  let a := s.actor host
  let (cue, script) := a.script.take p
  (cue, s.setActor host { a with script })

def follow (s : Rehearsal) (host : String) (cue : Cue) : Rehearsal :=
  let a := s.actor host
  s.setActor host { a with script := a.script.follow cue }

def usualConfig (s : Rehearsal) (cluster : Cluster) (host : String) : Bytes :=
  .ofText s!"cluster: {cluster.name}\nmachine:\n  network:\n    hostname: {host}\n  install:\n    image: {s.image}\n"

def asRunError : Mishap → Error
  | .run e => e
  | .api e => .api e

def serveConnect (s : Rehearsal) (node : Node) : Service Rehearsal (.connect node) :=
  if s.reachable.contains node.host then
    let (cue, begun) := s.take node.host .connect
    { begun
      delay := some cue.delay
      finish := fun s =>
        match cue.mishap with
        | some m => (s, .error (asRunError m))
        | none => (s.follow node.host cue, .ok .mutual) }
  else
    { begun := s
      delay := some 0
      finish := fun s => (s, .error (.connect node.endpoint "connection refused")) }

def serveRender (s : Rehearsal) (cluster : Cluster) (node : Node) :
    Service Rehearsal (.render node) :=
  let (cue, begun) := s.take node.host .render
  { begun
    delay := some cue.delay
    finish := fun s =>
      match cue.mishap with
      | some m => (s, .error (asRunError m))
      | none =>
        (s.follow node.host cue,
          .ok (cue.line.config.getD (s.usualConfig cluster node.host))) }

def serveRequest (s : Rehearsal) (client : Client) (r : Request) :
    Service Rehearsal (.request client r) :=
  let host := client.node.host
  let (cue, begun) := s.take host (.ofRequest r)
  { begun
    delay := some cue.delay
    finish := fun s =>
      let (a, result) := (s.actor host).answer cue r
      (s.setActor host a, result) }

def serveAsk (s : Rehearsal) (question : String) : Service Rehearsal (.ask question) :=
  { begun := { s with answers := s.answers.tail }
    delay := some 0
    finish := fun s' => (s', s.answers.head?.getD (.ok true)) }

def environment (cluster : Cluster) : Environment Rehearsal where
  serve s _ call :=
    match call with
    | .connect node => s.serveConnect node
    | .render node => s.serveRender cluster node
    | .request client r => s.serveRequest client r
    | .display _ => { begun := s, delay := some 0, finish := fun s => (s, .ok ()) }
    | .ask question => s.serveAsk question

end Rehearsal
end Rollout
