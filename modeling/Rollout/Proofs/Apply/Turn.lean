import Rollout.Proofs.Watchdog.Stability
import Rollout.Run.Apply

/-!
# The turn of a node

In its turn a node is called, and the operator; no other node is. A change is sent for good by one kind of call
only, which is not one of the watchdog's.
-/

namespace Rollout

def Call.Commits (c : Call) : Prop :=
  ∃ client data, c = .request client (.applyConfiguration data false)

def Entry.commit? : Entry → Option Instant
  | .answered t (.request _ (.applyConfiguration _ false)) (.ok _) => some t
  | _ => none

def commits (es : List Entry) : List Instant := es.filterMap Entry.commit?

@[simp] theorem commits_append (es es' : List Entry) :
    commits (es ++ es') = commits es ++ commits es' :=
  List.filterMap_append

theorem Entry.commits_of_commit? {e : Entry} {t : Instant} (h : e.commit? = some t) :
    e.call.Commits ∧ e.time = t := by
  unfold commit? at h
  split at h
  · cases h
    exact ⟨⟨_, _, rfl⟩, rfl⟩
  · cases h

theorem commits_eq_nil {es : List Entry} (h : ∀ e ∈ es, ¬ e.call.Commits) : commits es = [] := by
  refine List.filterMap_eq_nil_iff.2 fun e he => ?_
  cases hcommit : e.commit? with
  | none => rfl
  | some t => exact absurd (e.commits_of_commit? hcommit).1 (h e he)

variable {σ : Type}

/-- The calls of a turn: to its node, or to the operator. -/
def Applies (node : Node) (c : Call) : Prop :=
  c = .connect node ∨
    (∃ client data dryRun, client.node = node ∧ c = .request client (.applyConfiguration data dryRun)) ∨
    c.node? = none

namespace Work

variable {S : Setting σ} {P : Call → Prop} {o : Observation} {options : ApplyOptions}

theorem node_of_ends_connected {w w' : World σ} {node : Node} {client : Client}
    (h : (connected node).Ends S w (.ok client) w') : client.node = node := by
  rcases ends_bind_iff.1 h with ⟨e | client', w₁, hconnect, h⟩ | ⟨e, -, hr⟩
  · cases (ends_fail_iff.1 h).1
  · cases (ends_pure_iff.1 h).1
    exact node_of_ends_connect hconnect
  · cases hr

theorem Runs.configOf : (configOf o).Runs S P := by
  unfold Work.configOf
  split
  · exact .pure _
  · exact .fail _

theorem Runs.connected {node : Node} (hc : P (.connect node)) : (connected node).Runs S P :=
  .bind (.connect hc) fun _ => .ofExcept _

theorem Runs.sendConfig {client : Client} {data : Bytes} {dryRun : Bool}
    (hc : P (.request client (.applyConfiguration data dryRun))) :
    (sendConfig client data dryRun).Runs S P := by
  refine .bind (.request hc) fun answer => ?_
  cases answer with
  | ok reply => exact .pure _
  | error e => exact .fail _

theorem Runs.approved {host : String} {preview : ApplyReply}
    (hc : ∀ c : Call, c.node? = none → P c) : (approved host preview options).Runs S P := by
  unfold Work.approved
  split
  · exact .bind (.display (hc _ rfl)) fun _ => .ask (hc _ rfl)
  · exact .pure _

theorem Runs.applyNode : (applyNode o options).Runs S (Applies o.node) := by
  refine .bind .configOf fun config => ?_
  refine .bind_of_ends (.connected (.inl rfl)) fun w client w₁ hclient => ?_
  have hsend (dryRun : Bool) : Applies o.node (.request client (.applyConfiguration config dryRun)) :=
    .inr (.inl ⟨client, config, dryRun, node_of_ends_connected hclient, rfl⟩)
  refine .bind (.sendConfig (hsend true)) fun preview => ?_
  split
  · exact .pure _
  split
  · exact .bind (.display (.inr (.inr rfl))) fun _ => .pure _
  refine .bind (.approved fun c hc => .inr (.inr hc)) fun yes => ?_
  split
  · exact .bind (.sendConfig (hsend false)) fun _ => .pure _
  · exact .pure _

end Work

/-- A call that a turn may make: to its node or to the operator. -/
def InTurn (node : Node) (c : Call) : Prop := c.node? = some node ∨ c.node? = none

theorem Applies.inTurn {node : Node} {c : Call} (h : Applies node c) : InTurn node c := by
  rcases h with rfl | ⟨client, data, dryRun, rfl, rfl⟩ | h
  · exact .inl rfl
  · exact .inl rfl
  · exact .inr h

theorem Watches.inTurn {node : Node} {c : Call} (h : Watches node c) : InTurn node c := by
  rcases h with rfl | ⟨client, rfl, rfl | rfl⟩ <;> exact .inl rfl

theorem Watches.not_commits {node : Node} {c : Call} (h : Watches node c) : ¬ c.Commits := by
  rintro ⟨client, data, rfl⟩
  rcases h with h | ⟨client', -, h | h⟩ <;> cases h

end Rollout
