import Rollout.Proofs.Apply.TwoPhase
import Rollout.Proofs.Upgrade.Course

/-!
# Dry runs are inert

A dry run only observes its nodes, and an apply asks each eligible node for one preview, which is shown. Nobody
is asked anything, nothing is sent for good, and no events are subscribed to.
-/

namespace Rollout

variable {σ : Type} {S : Setting σ} {w w' : World σ} {o : Observation} {eligible : List Observation}

/-- A call that asks the operator, or does more with a node than reading it or previewing a change. -/
def Call.Intrudes : Call → Prop
  | .ask _ => True
  | .request _ (.applyConfiguration _ dryRun) => dryRun = false
  | .request _ .bootstrap => True
  | .request _ (.reset _) => True
  | .request _ (.upgrade _) => True
  | .request _ .watch => True
  | _ => False

/-- A call of a dry run past its preflight: the node is asked for a preview, and the operator sees it. -/
def Rehearses (node : Node) (c : Call) : Prop := Prepares node c ∨ ∃ text, c = .display text

theorem Observes.not_intrudes {c : Call} (h : Observes c) : ¬ c.Intrudes := by
  obtain ⟨node, step, rfl⟩ := h
  cases step <;> exact not_false

theorem Rehearses.not_intrudes {node : Node} {c : Call} (h : Rehearses node c) : ¬ c.Intrudes := by
  rcases h with (rfl | ⟨client, data, -, rfl⟩) | ⟨text, rfl⟩
  · exact not_false
  · exact Bool.noConfusion
  · exact not_false

/-- What is left in the journal by a run with this policy that is a dry run: it observes the nodes, and
may then ask each eligible node for one preview. -/
inductive Inert (p : Policy) (S : Setting σ) (w : World σ) (log : List Entry) : Prop
  | observing (hobserves : ∀ e ∈ log, Observes e.call) : Inert p S w log
  | rehearsing {gathered es eligible w₁} (hpass : Passes p S w gathered eligible w₁)
      (hlog : log = gathered ++ es) (hcalls : ∀ e ∈ es, ∃ o ∈ eligible, Rehearses o.node e.call)
      (honce : ∀ host, es.countP (Entry.sends true host) ≤ 1) : Inert p S w log

theorem Inert.not_intrudes {p : Policy} {log : List Entry} (h : Inert p S w log) :
    ∀ e ∈ log, ¬ e.call.Intrudes := by
  cases h with
  | observing hobserves => exact fun e he => (hobserves e he).not_intrudes
  | rehearsing hpass hlog hcalls =>
    subst hlog
    refine List.forall_mem_append.2 ⟨fun e he => (hpass.observes e he).not_intrudes, fun e he => ?_⟩
    obtain ⟨o, -, hc⟩ := hcalls e he
    exact hc.not_intrudes

namespace Work

section

variable {options : ApplyOptions} (hdry : options.dryRun = true)

include hdry

theorem Runs.applyNode_dry : (Work.applyNode o options).Runs S (Rehearses o.node) := by
  refine .bind .configOf fun config => ?_
  refine .bind_of_ends (.connected (.inl (.inl rfl))) fun w client w₁ hclient => ?_
  have hpreview : Rehearses o.node (.request client (.applyConfiguration config true)) :=
    .inl (.inr ⟨client, config, node_of_ends_connected hclient, rfl⟩)
  refine .bind (.sendConfig hpreview) fun preview => ?_
  split
  · exact .pure _
  exact .bind (.display (.inr ⟨_, rfl⟩)) fun _ => .pure _

theorem Runs.applyEligible_dry (hlimit : S.limit = none) :
    (Work.applyEligible options eligible).Runs S
      fun c => ∃ o ∈ eligible, Rehearses o.node c := by
  unfold Work.applyEligible
  rw [hdry]
  refine .bind (.applyNodes fun o ho => ?_) fun _ => ?_
  · rw [applyTurn_eq]
    refine .watchedTurn hlimit ((Runs.applyNode_dry hdry).mono fun c hc => ⟨o, ho, hc⟩) fun a ha => ?_
    simp [ApplyOptions.watches, hdry] at ha
  · rw [if_neg (by simp)]
    exact .pure _

/-- Turns are all there is to a dry run past its preflight. -/
theorem turnwise_of_ends_applyEligible_dry {r : Except Stop ApplyReport}
    (h : (applyEligible options eligible).Ends S w r w') :
    ∃ stabilize r₁, Turnwise (applyTurns S options stabilize) eligible w r₁ w' ∧
      r = r₁.map fun as => { outcomes := (eligible.map (·.host)).zip as } := by
  cases applyCourse_of_ends h with
  | unapplied hturns => exact ⟨_, _, hturns, rfl⟩
  | applied hturns => exact ⟨_, _, .finished hturns, rfl⟩
  | started _ hstarts => cases hstarts.2.symm.trans hdry

end

theorem inert_of_ends_apply {options : ApplyOptions} (hdry : options.dryRun = true)
    (hlimit : S.limit = none) (hhosts : (S.nodes.map (·.host)).Nodup) {r : Except Stop ApplyReport}
    (h : (apply options).Ends S w r w') {log : List Entry} (hlog : w.Gains w' log) :
    Inert options.policy S w log := by
  rw [apply_eq] at h
  cases guarded_of_ends h with
  | silent hgather => exact .observing fun e he => ((hgather.extends .gather).forall_mem hlog e he).1
  | refused hgather => exact .observing fun e he => ((hgather.extends .gather).forall_mem hlog e he).1
  | @passed gathered eligible w₁ _ _ hpass hgo =>
    obtain ⟨es, hes, hcalls⟩ := (hgo.extends (.applyEligible_dry hdry hlimit)).gains
    obtain ⟨stabilize, r₁, hturns, -⟩ := turnwise_of_ends_applyEligible_dry hdry hgo
    exact .rehearsing hpass (hlog.unique (hpass.gains.trans hes)) (fun e he => (hcalls e he).1)
      fun host => countP_sends_le_one hlimit (hpass.nodup_hosts hhosts) hturns hes true

theorem Runs.upgrade_dry {options : UpgradeOptions} (hdry : options.dryRun = true) :
    (Work.upgrade options).Runs S Observes := by
  rw [upgrade_eq]
  refine .guarded (fun _ hc => hc) fun eligible => ?_
  rw [upgradeNodes_eq]
  refine .map (.mapM fun o _ => .bind .checkpoint fun _ => ?_)
  unfold upgradeNode
  rw [desiredImage_eq]
  refine .bind (.ofExcept _) fun desired => ?_
  dsimp only
  split
  · exact .pure _
  exact .pure _

end Work
end Rollout
