import Rollout.Rehearsal.Fleet
import Rollout.Run.Observation

/-!
# Rehearsal sessions

Several pieces of work done one after the other by the same fleet: the clock goes on, scripts and applied
configurations stay, and so do the observations that the next piece starts from.
-/

namespace Rollout

structure Session where
  cluster : Cluster
  /-- In visiting order. -/
  nodes : List Node
  world : World Rehearsal
  current : List Observation := []

namespace Session

def perform {α : Type} (s : Session) (signal : Signal) (work : Work Rehearsal α) :
    Except Stop α × Session :=
  let setting : Setting Rehearsal :=
    { environment := Rehearsal.environment s.cluster, cluster := s.cluster, nodes := s.nodes, signal }
  let (result, world) := (work.result? setting s.world).getD (.error .overdue, s.world)
  (result, { s with world })

/-- Takes the observation of a host; a host not observed is taken as declared, nothing known of it. -/
def takeNode? (s : Session) (host : String) : Option (Observation × Session) :=
  match s.current.find? (·.host == host) with
  | some o => some (o, { s with current := s.current.eraseP (·.host == host) })
  | none => (s.nodes.find? (·.host == host)).map fun n => ({ node := n }, s)

/-- Gives a host another script for one kind of call. -/
def direct (s : Session) (host : String) (part : Part) (cues : List Cue) : Session :=
  let fleet := s.world.state
  let actor := fleet.actor host
  let state := fleet.setActor host { actor with script := actor.script.replace part cues }
  { s with world := { s.world with state } }

def sleep (s : Session) (d : Duration) : Session :=
  { s with world := { s.world with now := s.world.now + d } }

end Session
end Rollout
