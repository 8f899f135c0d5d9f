import Rollout.Secrets.Cache

/-!
# A scripted store of secrets

For rehearsing the secrets of a run: each access takes the next cue of its kind, the last one stays, and
a kind without cues works. The store keeps what it is given and the log of what was asked of it.
-/

namespace Rollout

/-- What becomes of one access. -/
inductive VaultCue where
  | works
  | holds (bundle : Bundle)
  | fails (e : Error)

structure Vault where
  gets : List VaultCue
  puts : List VaultCue
  stored : Option Bundle := none
  /-- What was asked, the last first. -/
  log : List String := []

namespace Vault

def take : List VaultCue → VaultCue × List VaultCue
  | [] => (.works, [])
  | [cue] => (cue, [cue])
  | cue :: rest => (cue, rest)

def store (cluster : String) : Store Vault where
  get v :=
    let (cue, gets) := take v.gets
    let v := { v with gets, log := s!"get {cluster}" :: v.log }
    match cue with
    | .works => (v, .ok v.stored)
    | .holds bundle => (v, .ok (some bundle))
    | .fails e => (v, .error e)
  put v bundle :=
    let (cue, puts) := take v.puts
    let v := { v with puts, log := s!"put {cluster}" :: v.log }
    match cue with
    | .fails e => (v, .error e)
    | _ => ({ v with stored := some bundle }, .ok ())

/-- The bundle that stands for one that was generated. -/
def generated : Bundle :=
  let pair (name : String) : KeyPair := ⟨name ++ " certificate\n", name ++ " key\n"⟩
  ⟨"generated", "generated", pair "os", pair "admin", pair "k8s", pair "etcd"⟩

/-- Serves several rounds of concurrent callers: the callers and the log of each round. -/
def rounds (cluster : String) (c : Cache Vault) : List Nat → List (List Caller × Vault)
  | [] => []
  | n :: rest =>
    let c := Cache.serveAll (store cluster) (fun v => (v, .ok generated))
      { c with store := { c.store with log := [] } } n
    (c.callers, c.store) :: rounds cluster c rest

end Vault
end Rollout
