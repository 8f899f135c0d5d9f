import Rollout.Proofs.Apply.Course
import Rollout.Proofs.Gather.Conduct

/-!
# What configuring does to the world

The journal of an apply run tells all that becomes of the world, watching and starting etcd included. The turn
of a node therefore leaves every other node as it was.
-/

namespace Rollout

variable {σ τ : Type} {options : ApplyOptions} {stabilize : Bool} {o : Observation}

/-- What is called in the turn of another host is no business of the node. -/
theorem InTurn.apart {node other : Node} {c : Call} (h : InTurn other c) (hhost : other.host ≠ node.host) :
    c.Apart node := by
  intro n hn
  rcases h with h | h
  · have hsame : n = other := Option.some.inj (hn.symm.trans h)
    exact hsame ▸ hhost
  · cases hn.symm.trans h

namespace Work.Accounted

protected theorem configOf : (configOf o : Work σ _).Accounted := by
  unfold Work.configOf
  split
  · exact .pure _
  · exact .fail _

protected theorem connected {node : Node} : (connected node : Work σ _).Accounted :=
  .bind .connect fun _ => .ofExcept _

protected theorem sendConfig {client : Client} {data : Bytes} {dryRun : Bool} :
    (sendConfig client data dryRun : Work σ _).Accounted := by
  refine .bind .request fun answer => ?_
  cases answer with
  | ok reply => exact .pure _
  | error e => exact .fail _

protected theorem approved {host : String} {preview : ApplyReply} :
    (approved host preview options : Work σ _).Accounted := by
  unfold Work.approved
  split
  · exact .bind .display fun _ => .ask
  · exact .pure _

protected theorem applyNode : (applyNode o options : Work σ _).Accounted := by
  refine .bind .configOf fun config => .bind .connected fun client => .bind .sendConfig fun preview => ?_
  split
  · exact .pure _
  split
  · exact .bind .display fun _ => .pure _
  refine .bind .approved fun yes => ?_
  split
  · exact .bind .sendConfig fun _ => .pure _
  · exact .pure _

protected theorem watchFor {window : Duration} {subscribed : Instant} {stream : EventStream} :
    (watchFor window subscribed stream : Work σ _).Accounted := by
  refine .bind .clock fun start => .bind .raisedAt? fun raised => .bind .favours fun favoured => ?_
  dsimp only
  refine .bind (.waitUntil _) fun _ => ?_
  split <;> exact .pure _

protected theorem stableAttempt {node : Node} {window : Duration} :
    (stableAttempt node window : Work σ _).Accounted := by
  refine .bind .connect fun a => ?_
  cases a with
  | error e => exact .pure _
  | ok client =>
    refine .bind .request fun subscription => ?_
    cases subscription with
    | error e => exact .pure _
    | ok stream =>
      refine .bind .clock fun subscribed => .bind .request fun answer => ?_
      cases answer with
      | error e => exact .pure _
      | ok status =>
        dsimp only
        split
        · exact .pure _
        · exact .watchFor

protected theorem applyTurn : (applyTurn options stabilize o : Work σ _).Accounted := by
  refine .bind .checkpoint fun _ => .bind .applyNode fun outcome => ?_
  split
  · exact .bind (.retryOrFail .stableAttempt _) fun _ => .pure _
  · exact .pure _

protected theorem etcdAttempt {seed : Node} : (etcdAttempt seed : Work σ _).Accounted := by
  refine .bind .connect fun a => ?_
  cases a with
  | error e => exact .pure _
  | ok client =>
    refine .bind .request fun answer => ?_
    rcases answer with e | _ | state
    · exact .pure _
    · exact .pure _
    dsimp only
    split
    · refine .bind .request fun answer => ?_
      cases answer <;> exact .pure _
    split
    · refine .bind (.bind .request fun answer => ?_) fun n => ?_
      · cases answer <;> exact .pure _
      · split <;> exact .pure _
    · exact .pure _

protected theorem ensureEtcd {nodes : List Node} : (ensureEtcd nodes : Work σ _).Accounted := by
  unfold Work.ensureEtcd
  split
  · exact .pure _
  · exact .retryOrFail .etcdAttempt _

end Work.Accounted

variable {S : Setting σ} {w w' : World σ}

theorem keeps_of_ends_applyTurn (hlimit : S.limit = none) {node : Node} {view : σ → τ}
    {conduct : Conduct τ} (hconducts : S.environment.Conducts node view conduct)
    (hhost : o.host ≠ node.host) {r : Except Stop ApplyOutcome}
    (h : applyTurns S options stabilize o w r w') : view w'.state = view w.state :=
  h.keeps .applyTurn (extends_of_ends_applyTurn hlimit o w r w' h)
    (hconducts.apart.mono fun _ hc => hc.apart hhost)

end Rollout
