import Rollout.Proofs.Apply.Run
import Rollout.Proofs.Bootstrap.Course
import Rollout.Proofs.Gather.Accounts
import Rollout.Proofs.Upgrade.Course

/-!
# No turn without a configuration

Applying to a node and upgrading it take the configuration from its record and fail if there is none. In a
run that never happens, as a record that passes the preflight is one without a failure, and such a record has
a configuration. So a run is the same work whatever might stand in for a configuration that is missing.
-/

namespace Rollout

variable {σ α : Type}

/-- The record, with a substitute if there is no configuration. -/
def Observation.furnished (substitute : Observation → Bytes) (o : Observation) : Observation :=
  { o with config := some (o.config.getD (substitute o)) }

theorem Observation.furnished_eq {substitute : Observation → Bytes} {o : Observation}
    (h : o.config ≠ none) : o.furnished substitute = o := by
  obtain ⟨node, stage, readiness, schematic, osVersion, config, failure⟩ := o
  cases config with
  | none => exact absurd rfl h
  | some config => rfl

namespace Passes

variable {p : Policy} {S : Setting σ} {w w₁ : World σ} {gathered : List Entry} {eligible : List Observation}

theorem config_ne_none (h : Passes p S w gathered eligible w₁) {o : Observation} (ho : o ∈ eligible) :
    o.config ≠ none := by
  obtain ⟨records, hattests, -, rfl⟩ := h.attested
  obtain ⟨hmem, heligible⟩ := List.mem_filter.1 ho
  obtain ⟨es, -, hes⟩ := hattests.exists_history hmem
  exact fun hnone => hes.accounts.one.1 hnone (of_decide_eq_true heligible).observed

theorem map_furnished (h : Passes p S w gathered eligible w₁) (substitute : Observation → Bytes) :
    eligible.map (·.furnished substitute) = eligible := by
  have hsame : ∀ o ∈ eligible, o.furnished substitute = o :=
    fun o ho => Observation.furnished_eq (h.config_ne_none ho)
  rw [List.map_congr_left hsame, List.map_id']

end Passes

namespace Work

/-- The turns of records of which none is without a configuration. -/
def furnishing (substitute : Observation → Bytes) (go : List Observation → Work σ α)
    (eligible : List Observation) : Work σ α :=
  go (eligible.map (·.furnished substitute))

theorem configOf_furnished (substitute : Observation → Bytes) (o : Observation) :
    (configOf (o.furnished substitute) : Work σ Bytes) = pure (o.config.getD (substitute o)) := rfl

theorem ext_result? {x y : Work σ α} (h : ∀ S w, x.result? S w = y.result? S w) : x = y :=
  funext fun S => funext fun w => h S w

/-- Work that is only done if a run over these nodes can start etcd. -/
def seeded (go : Work σ α) : Work σ α := do
  ofExcept (checkSeed (← read).nodes)
  go

/-- A run does nothing with the substitutes. -/
theorem guarded_furnishing (p : Policy) (substitute : Observation → Bytes)
    (go : List Observation → Work σ α) : guarded p (furnishing substitute go) = guarded p go := by
  refine ext_result? fun S w => ?_
  unfold guarded
  rw [result?_bind, result?_bind]
  rcases hgather : gather.result? S w with _ | ⟨stop | records, w₁⟩
  · rfl
  · rfl
  dsimp only
  cases hcheck : p.check records with
  | error e => rfl
  | ok eligible =>
    change (furnishing substitute go eligible).result? S w₁ = (go eligible).result? S w₁
    obtain ⟨log, hlog, -⟩ := (Ends.extends hgather .gather).gains
    have hpasses : Passes p S w log eligible w₁ := .intro hgather hlog hcheck
    rw [furnishing, hpasses.map_furnished]

end Work

/-- Gathering ends, and with records if all nodes answer. Each record is that of its node, accounts for all
that was asked and answered about it, and has either a configuration or a failure. Therefore no run that
applies, upgrades or bootstraps ever looks for a configuration that is not there: with substitutes for those
that are missing it is the same work, and a record with a substitute does have one. -/
theorem gathered_records_are_consistent (substitute : Observation → Bytes) :
    (∀ (S : Setting σ) (w : World σ), ∃ r w' log, Work.gather.Ends S w r w' ∧ w.Gains w' log ∧
      ((S.environment.Answers fun c => ∃ node ∈ S.nodes, c.node? = some node) →
        ∃ records, r = .ok records) ∧
      ∀ records, r = .ok records → records.map (·.node) = S.nodes ∧
        (∃ histories, List.Forall₂ Observation.Accounts records histories ∧ Interleaves histories log) ∧
        ((S.nodes.map (·.host)).Nodup → ∀ o ∈ records,
          o.Accounts (log.filter fun x => x.host? == some o.host))) ∧
    (∀ o : Observation, (Work.configOf (o.furnished substitute) : Work σ Bytes) =
      pure (o.config.getD (substitute o))) ∧
    (∀ options : ApplyOptions, (Work.apply options : Work σ _) =
      Work.guarded options.policy (Work.furnishing substitute (Work.applyEligible options))) ∧
    (∀ options : UpgradeOptions, (Work.upgrade options : Work σ _) =
      Work.guarded options.policy (Work.furnishing substitute (Work.upgradeNodes options))) ∧
    ∀ confirm : Bool, (Work.bootstrap confirm : Work σ _) = Work.seeded
      (Work.guarded .bootstrap (Work.furnishing substitute (Work.bootstrapEligible confirm))) := by
  refine ⟨fun S w => ?_, Work.configOf_furnished substitute, fun options => ?_, fun options => ?_,
    fun confirm => ?_⟩
  · obtain ⟨r, w', h, hextends⟩ : ∃ r w', Work.gather.Ends S w r w' ∧ w.Extends Observes w' :=
      Work.Runs.gather w
    obtain ⟨log, hlog, -⟩ := hextends.gains
    refine ⟨r, w', log, h, hlog, fun hanswers => ?_, ?_⟩
    · obtain ⟨records, w₁, hrecords⟩ := Work.ends_gather_of_answers hanswers w
      exact ⟨records, (h.unique hrecords).1⟩
    · rintro records rfl
      have hnodes := Work.nodes_of_ends_gather h
      obtain ⟨log', hlog', hattests⟩ := Work.attests_of_ends_gather h
      obtain rfl := hlog.unique hlog'
      refine ⟨hnodes, ?_, fun hhosts o ho => ?_⟩
      · obtain ⟨histories, htold, hinter⟩ := hattests
        exact ⟨histories, htold.imp fun _ _ hes => hes.accounts, hinter⟩
      · exact (hattests.observing_filter (Work.nodup_hosts_of_ends_gather hhosts h) ho).accounts
  · rw [Work.guarded_furnishing, Work.apply_eq]
  · rw [Work.guarded_furnishing, Work.upgrade_eq]
  · rw [Work.guarded_furnishing]
    rfl

/-- As `obliging`, but the node `b` does not list its extensions. -/
def reticent : Environment Unit where
  serve s t
    | .request ⟨⟨"b", _, _, _⟩, _, _⟩ .extensions =>
      ⟨(), some 0, fun _ => ((), .error (.unavailable "busy"))⟩
    | c => obliging.serve s t c

theorem answers_reticent (P : Call → Prop) : reticent.Answers P := by
  intro s t c _
  unfold reticent
  dsimp only
  split <;> exact Option.some_ne_none _

def halfTold : Setting Unit := { twoNodes with environment := reticent }

theorem half_told_records_are_consistent :
    (halfTold.nodes.map (·.host)).Nodup ∧
      (halfTold.environment.Answers fun c => ∃ node ∈ halfTold.nodes, c.node? = some node) ∧
      ∃ records w' log, Work.gather.Ends halfTold { state := () } (.ok records) w' ∧
        World.Gains { state := () } w' log ∧
        records.map (fun o => (o.host, o.stage, o.schematic)) =
          [("a", .running, Observation.defaultSchematic), ("b", .running, "")] ∧
        records.map (fun o => (o.config, o.failure)) =
          [(some [], none), (none, some (.gather "list extensions" (.api (.unavailable "busy"))))] ∧
        ∀ o ∈ records, o.Accounts (log.filter fun x => x.host? == some o.host) := by
  have hhosts : (halfTold.nodes.map (·.host)).Nodup := by decide
  have hanswers := answers_reticent fun c => ∃ node ∈ halfTold.nodes, c.node? = some node
  obtain ⟨r, w', log, h, hlog, hok, hrecords⟩ :=
    (gathered_records_are_consistent fun _ => []).1 halfTold { state := () }
  obtain ⟨records, rfl⟩ := hok hanswers
  obtain ⟨-, -, haccounts⟩ := hrecords records rfl
  have hgathered := (Work.records_of_ends_gather h).2
  refine ⟨hhosts, hanswers, records, w', log, h, hlog, ?_, ?_, haccounts hhosts⟩
  · rw [hgathered]
    decide +kernel
  · rw [hgathered]
    decide +kernel

end Rollout
