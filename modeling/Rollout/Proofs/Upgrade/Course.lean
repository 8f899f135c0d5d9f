import Rollout.Proofs.Preflight.Eligibility
import Rollout.Proofs.Upgrade.Protocol

/-!
# The course of an upgrade run

Past its preflight an upgrade run is the turns of the eligible nodes, with the outcomes under the hosts.
-/

namespace Rollout

variable {σ : Type} {S : Setting σ} {options : UpgradeOptions} {w w' : World σ} {o : Observation}
  {eligible : List Observation}

namespace Work

def upgradeTurn (options : UpgradeOptions) (o : Observation) : Work σ UpgradeOutcome := do
  checkpoint
  upgradeNode o options

theorem upgradeTurn_eq :
    (upgradeTurn options o : Work σ _) =
      watchedTurn (upgradeCall · options) (· == .upgraded) o := by
  unfold upgradeTurn
  rw [upgradeNode_eq]
  rfl

theorem upgradeNodes_eq :
    (upgradeNodes options eligible : Work σ _) =
      (eligible.map (·.host)).zip <$> eligible.mapM (upgradeTurn options) := by
  induction eligible with
  | nil => rfl
  | cons o rest ih =>
    rw [upgradeNodes, ih, List.mapM_cons]
    simp only [upgradeTurn, map_eq_pure_bind, bind_assoc, pure_bind]
    rfl

theorem upgrade_eq :
    (upgrade options : Work σ _) = guarded options.policy (upgradeNodes options) := rfl

theorem watchedTurn_of_ends_upgradeTurn {r : Except Stop UpgradeOutcome}
    (h : (upgradeTurn options o).Ends S w r w') :
    WatchedTurn S (UpgradeTrace options o) (· == .upgraded) o.node w r w' := by
  rw [upgradeTurn_eq] at h
  exact watchedTurn_of_ends Leaves.upgradeCall Runs.upgradeCall h

protected theorem Runs.upgradeTurn (hlimit : S.limit = none) :
    (upgradeTurn options o).Runs S (InTurn o.node) := by
  rw [upgradeTurn_eq]
  exact .watchedTurn hlimit Runs.upgradeCall fun _ _ _ hc => hc.inTurn

protected theorem Runs.upgradeNodes (hlimit : S.limit = none) :
    (upgradeNodes options eligible).Runs S fun c => ∃ o ∈ eligible, InTurn o.node c := by
  rw [upgradeNodes_eq]
  exact .map (.mapM fun o ho => (Runs.upgradeTurn hlimit).mono fun c hc => ⟨o, ho, hc⟩)

protected theorem Runs.upgrade (hlimit : S.limit = none) : (upgrade options).Runs S fun _ => True := by
  rw [upgrade_eq]
  exact .guarded (fun _ _ => trivial) fun _ => (Runs.upgradeNodes hlimit).mono fun _ _ => trivial

end Work

abbrev upgradeTurns (S : Setting σ) (options : UpgradeOptions) (o : Observation) :
    World σ → Except Stop UpgradeOutcome → World σ → Prop :=
  (Work.upgradeTurn options o).Ends S

theorem turnwise_of_ends_upgradeNodes {r : Except Stop (List (String × UpgradeOutcome))}
    (h : (Work.upgradeNodes options eligible).Ends S w r w') :
    ∃ r₁, Turnwise (upgradeTurns S options) eligible w r₁ w' ∧
      r = r₁.map (eligible.map (·.host)).zip := by
  rw [Work.upgradeNodes_eq] at h
  obtain ⟨r₁, hturns, hr⟩ := Work.ends_map_iff.1 h
  exact ⟨r₁, Work.turnwise_of_ends_mapM hturns, hr⟩

theorem extends_of_ends_upgradeTurn (hlimit : S.limit = none) (o : Observation) (w : World σ)
    (r : Except Stop UpgradeOutcome) (w' : World σ) (h : upgradeTurns S options o w r w') :
    w.Extends (InTurn o.node) w' :=
  h.extends (.upgradeTurn hlimit)

end Rollout
