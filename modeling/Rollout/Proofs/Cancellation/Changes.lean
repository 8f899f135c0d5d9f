import Rollout.Proofs.Cancellation.Strides
import Rollout.Proofs.Reset.Course
import Rollout.Proofs.Run.Gathering
import Rollout.Proofs.Upgrade.Protocol

/-!
# Changes

A call changes a node if it commits a configuration, upgrades or resets the node, or starts etcd on it.
`Work.ChangesAtMost` counts such calls through a piece of work. A turn makes one at most, as does an
attempt to start etcd; the watchdog makes none.
-/

namespace Rollout

def Call.changes : Call → Bool
  | request _ (.applyConfiguration _ dryRun) => !dryRun
  | request _ (.upgrade _) => true
  | request _ (.reset _) => true
  | request _ .bootstrap => true
  | _ => false

def Entry.changes : Entry → Bool
  | sent _ call => call.changes
  | _ => false

theorem Observes.changes_eq {c : Call} (h : Observes c) : c.changes = false := by
  obtain ⟨node, step, rfl⟩ := h
  cases step <;> rfl

theorem Watches.changes_eq {node : Node} {c : Call} (h : Watches node c) : c.changes = false := by
  rcases h with rfl | ⟨client, -, rfl | rfl⟩ <;> rfl

theorem Entry.changes_eq_false {e : Entry} (h : e.call.changes = false) : e.changes = false := by
  cases e with
  | sent => exact h
  | answered => rfl

variable {σ α β : Type}

namespace Work

/-- What the work leaves in the journal sends no more than `n` changes. -/
def ChangesAtMost (n : ℕ) (S : Setting σ) (x : Work σ α) : Prop :=
  x.Leaves S fun es _ => es.countP Entry.changes ≤ n

namespace ChangesAtMost

variable {S : Setting σ} {m n : ℕ}

protected theorem pure {a : α} : (pure a : Work σ α).ChangesAtMost n S :=
  Leaves.pure (Nat.zero_le n)

protected theorem fail {e : Error} : (fail e : Work σ α).ChangesAtMost n S :=
  Leaves.fail (Nat.zero_le n)

protected theorem ofExcept {x : Except Error α} : (ofExcept x : Work σ α).ChangesAtMost n S := by
  cases x with
  | ok a => exact .pure
  | error e => exact .fail

protected theorem bind {x : Work σ α} {f : α → Work σ β} (hx : x.ChangesAtMost m S)
    (hf : ∀ a, (f a).ChangesAtMost n S) : (x >>= f).ChangesAtMost (m + n) S := by
  refine Leaves.bind hx (fun es _ hes => hes.trans (Nat.le_add_right m n)) fun es a hes => ?_
  refine (hf a).imp fun es' _ hes' => ?_
  rw [List.countP_append]
  exact Nat.add_le_add hes hes'

/-- Before the changes come calls that change nothing. -/
protected theorem after {x : Work σ α} {f : α → Work σ β} (hx : x.ChangesAtMost 0 S)
    (hf : ∀ a, (f a).ChangesAtMost n S) : (x >>= f).ChangesAtMost n S := by
  have h := ChangesAtMost.bind hx hf
  rwa [Nat.zero_add] at h

/-- After the changes comes nothing that changes. -/
protected theorem before {x : Work σ α} {f : α → Work σ β} (hx : x.ChangesAtMost n S)
    (hf : ∀ a, (f a).ChangesAtMost 0 S) : (x >>= f).ChangesAtMost n S :=
  ChangesAtMost.bind hx hf

protected theorem of_runs {P : Call → Prop} {x : Work σ α} (h : x.Runs S P)
    (hP : ∀ c, P c → c.changes = false) : x.ChangesAtMost n S := by
  intro w r w' hends
  obtain ⟨es, hgains, hall⟩ := (hends.extends h).gains
  have hnone : es.countP Entry.changes = 0 :=
    List.countP_eq_zero.2 fun e he => by simp [Entry.changes_eq_false (hP _ (hall e he).1)]
  exact ⟨es, hgains, hnone.trans_le (Nat.zero_le n)⟩

protected theorem call (c : Call) : (call c : Work σ _).ChangesAtMost 1 S := by
  intro w r w' hends
  rw [← bind_pure (call c)] at hends
  rcases gains_of_ends_call_bind hends with ⟨a, w₁, hgains, hrest⟩ | ⟨hgains, -⟩
  · obtain ⟨-, rfl⟩ := ends_pure_iff.1 hrest
    exact ⟨_, hgains, countP_exchange_le_one rfl⟩
  · exact ⟨_, hgains, List.countP_le_length⟩

protected theorem unchanging {c : Call} (hc : c.changes = false) :
    (call c : Work σ _).ChangesAtMost n S :=
  .of_runs (P := fun c' => c'.changes = false) (.call hc) fun _ h => h

protected theorem connect {node : Node} : (connect node : Work σ _).ChangesAtMost n S :=
  .of_runs (P := fun c => c.changes = false) (.connect rfl) fun _ h => h

protected theorem ask {question : String} : (ask question : Work σ Bool).ChangesAtMost n S :=
  .of_runs (P := fun c => c.changes = false) (.ask rfl) fun _ h => h

protected theorem connected {node : Node} : (connected node : Work σ Client).ChangesAtMost 0 S :=
  .after .connect fun _ => .ofExcept

protected theorem configOf {o : Observation} : (configOf o : Work σ Bytes).ChangesAtMost n S := by
  unfold Work.configOf
  split
  · exact .pure
  · exact .fail

protected theorem preview {client : Client} {data : Bytes} :
    (sendConfig client data true : Work σ _).ChangesAtMost n S :=
  .of_runs (P := fun c => c.changes = false) (Runs.sendConfig rfl) fun _ h => h

protected theorem sendConfig {client : Client} {data : Bytes} {dryRun : Bool} :
    (sendConfig client data dryRun : Work σ _).ChangesAtMost 1 S := by
  refine .before (.call _) fun answer => ?_
  cases answer with
  | ok reply => exact .pure
  | error e => exact .fail

protected theorem approved {host : String} {preview : ApplyReply} {options : ApplyOptions} :
    (approved host preview options : Work σ Bool).ChangesAtMost n S := by
  refine .of_runs (P := fun c => c.changes = false) (Runs.approved fun c hc => ?_) fun _ h => h
  cases c <;> first | rfl | cases hc

protected theorem applyNode {o : Observation} {options : ApplyOptions} :
    (applyNode o options : Work σ _).ChangesAtMost 1 S := by
  refine .after .configOf fun config => .after .connected fun client => .after .preview fun preview => ?_
  split
  · exact .pure
  split
  · exact .after (.of_runs (P := fun c => c.changes = false) (.display rfl) fun _ h => h) fun _ => .pure
  refine .after .approved fun yes => ?_
  split
  · exact .before .sendConfig fun _ => .pure
  · exact .pure

protected theorem upgradeCall {o : Observation} {options : UpgradeOptions} :
    (upgradeCall o options : Work σ _).ChangesAtMost 1 S := by
  have hrequest (image : String) : (requestUpgrade o options image : Work σ _).ChangesAtMost 1 S := by
    refine .after .connected fun client => .before (.before (.call _) fun answer => ?_) fun _ => .pure
    cases answer with
    | ok reply => exact .pure
    | error e => exact .fail
  refine .after .ofExcept fun desired => ?_
  dsimp only
  split
  · exact .pure
  split
  · exact .pure
  split
  · refine .after .ask fun yes => ?_
    split
    · exact .pure
    · exact hrequest _
  · exact hrequest _

protected theorem requestReset {o : Observation} {options : ResetOptions} :
    (requestReset o options : Work σ _).ChangesAtMost 1 S := by
  refine .after .connect fun answer => ?_
  cases answer with
  | error e => exact .pure
  | ok client =>
    refine .before (.call _) fun answer => ?_
    cases answer <;> exact .pure

protected theorem resetNode {o : Observation} {options : ResetOptions} :
    (resetNode o options : Work σ _).ChangesAtMost 1 S := by
  rw [resetNode_eq]
  split
  · exact .pure
  split
  · refine .after .ask fun yes => ?_
    split
    · exact .requestReset
    · exact .pure
  · exact .requestReset

protected theorem etcdAttempt {seed : Node} : (etcdAttempt seed : Work σ _).ChangesAtMost 1 S := by
  refine .after .connect fun answer => ?_
  cases answer with
  | error e => exact .pure
  | ok client =>
    refine .after (.unchanging rfl) fun answer => ?_
    rcases answer with e | _ | state
    · exact .pure
    · exact .pure
    dsimp only
    split
    · refine .before (.call _) fun answer => ?_
      cases answer <;> exact .pure
    split
    · refine .after (.after (.unchanging rfl) fun answer => ?_) fun members => ?_
      · cases answer <;> exact .pure
      · split <;> exact .pure
    · exact .pure

/-- An attempt under a limit makes the changes that it makes without, or fewer. -/
protected theorem attempt {ε : Type} {b : Budget} {work : Work σ (Attempt ε α)}
    (h : ∀ S, work.ChangesAtMost n S) : (b.attempt work).ChangesAtMost n S := by
  intro w r w' hends
  cases hlimit : b.attemptLimit with
  | none => exact h S w r w' ((ends_attempt_iff_of_no_limit hlimit).1 hends)
  | some limit =>
    rcases (ends_attempt_iff_of_limit hlimit).1 hends with ⟨o, hwork, -⟩ | ⟨hwork, -⟩ | ⟨e, hwork, -⟩
    · exact h _ w _ w' hwork
    · exact h _ w _ w' hwork
    · exact h _ w _ w' hwork

end ChangesAtMost
end Work

variable {act : Observation → Work σ α} {S : Setting σ}

theorem Stride.Taken.changes_le_one {s : Stride σ} (h : s.Taken act S)
    (hact : ∀ o, (act o).ChangesAtMost 1 S) : s.log.countP Entry.changes ≤ 1 := by
  obtain ⟨errand, begun, ended, log⟩ := s
  obtain ⟨-, hdone, hgains⟩ := h
  dsimp only at hdone hgains ⊢
  have hleaves {β : Type} {x : Work σ β} {r : Except Stop β} (hx : x.ChangesAtMost 1 S)
      (hends : x.Ends S begun r ended) : log.countP Entry.changes ≤ 1 := by
    obtain ⟨es, hes, hcount⟩ := hx _ _ _ hends
    rwa [hgains.unique hes]
  cases hdone with
  | turn hends => exact hleaves (hact _) hends
  | watch hends =>
    refine hleaves (.attempt fun S => ?_) hends
    exact .of_runs .stableAttempt fun _ hc => hc.changes_eq
  | start hends => exact hleaves (.attempt fun S => .etcdAttempt) hends

end Rollout
