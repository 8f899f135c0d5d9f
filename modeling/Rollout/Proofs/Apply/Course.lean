import Rollout.Proofs.Apply.Protocol
import Rollout.Proofs.Etcd.History
import Rollout.Proofs.Run.Gathering
import Rollout.Proofs.Watchdog.WatchedTurn

/-!
# The course of an apply run

Configuring several nodes is configuring each in its turn, with the outcomes under the hosts. What a run
does before and after the turns settles nothing: no configuration goes out and the operator is left
alone.
-/

namespace Rollout

variable {σ β : Type} {S : Setting σ} {options : ApplyOptions} {stabilize : Bool}
  {w w' : World σ} {o : Observation} {records : List Observation}

/-- Is a node with this outcome waited for? -/
def ApplyOptions.watches (options : ApplyOptions) (stabilize : Bool) (outcome : ApplyOutcome) : Bool :=
  stabilize && !options.dryRun && outcome == .changed

theorem ApplyOptions.not_watches {outcome : ApplyOutcome} (h : outcome ≠ .changed) :
    options.watches stabilize outcome = false := by
  simp [watches, h]

namespace Work

theorem applyTurn_eq :
    (applyTurn options stabilize o : Work σ _) =
      watchedTurn (applyNode · options) (options.watches stabilize) o := rfl

theorem watchedTurn_of_ends_applyTurn {r : Except Stop ApplyOutcome}
    (h : (applyTurn options stabilize o).Ends S w r w') :
    WatchedTurn S (ApplyTrace options o) (options.watches stabilize) o.node w r w' := by
  rw [applyTurn_eq] at h
  exact watchedTurn_of_ends Leaves.applyNode (Runs.applyNode.mono fun _ hc => hc.inTurn) h

theorem applyNodes_eq :
    (applyNodes options stabilize records : Work σ _) =
      (records.map (·.host)).zip <$> records.mapM (applyTurn options stabilize) := by
  induction records with
  | nil => rfl
  | cons o rest ih =>
    rw [applyNodes, ih, List.mapM_cons]
    simp only [map_eq_pure_bind, bind_assoc, pure_bind]
    rfl

protected theorem Runs.applyTurn {P : Call → Prop} (hlimit : S.limit = none)
    (happly : ∀ c, Applies o.node c → P c)
    (hwatch : ∀ outcome, options.watches stabilize outcome = true → ∀ c, Watches o.node c → P c) :
    (applyTurn options stabilize o).Runs S P := by
  rw [applyTurn_eq]
  exact .watchedTurn hlimit (Runs.applyNode.mono happly) hwatch

protected theorem Runs.applyNodes {P : Call → Prop}
    (h : ∀ o ∈ records, (applyTurn options stabilize o).Runs S P) :
    (applyNodes options stabilize records).Runs S P := by
  rw [applyNodes_eq]
  exact .map (.mapM h)

end Work

abbrev applyTurns (S : Setting σ) (options : ApplyOptions) (stabilize : Bool) (o : Observation) :
    World σ → Except Stop ApplyOutcome → World σ → Prop :=
  (Work.applyTurn options stabilize o).Ends S

theorem turnwise_of_ends_applyNodes {r : Except Stop (List (String × ApplyOutcome))}
    (h : (Work.applyNodes options stabilize records).Ends S w r w') :
    ∃ r₁, Turnwise (applyTurns S options stabilize) records w r₁ w' ∧
      r = r₁.map (records.map (·.host)).zip := by
  rw [Work.applyNodes_eq] at h
  obtain ⟨r₁, hturns, hr⟩ := Work.ends_map_iff.1 h
  exact ⟨r₁, Work.turnwise_of_ends_mapM hturns, hr⟩

/-- A turn fails and that is the end, or all turns are over and something follows. -/
theorem series_of_ends_applyNodes_bind {f : List (String × ApplyOutcome) → Work σ β}
    {r : Except Stop β} (h : (Work.applyNodes options stabilize records >>= f).Ends S w r w') :
    (∃ stop, r = .error stop ∧
        Turnwise (applyTurns S options stabilize) records w (.error stop) w') ∨
      ∃ as v, Series (applyTurns S options stabilize) records w as v ∧
        (f ((records.map (·.host)).zip as)).Ends S v r w' := by
  rcases Work.ends_bind_iff.1 h with ⟨outcomes, v, hnodes, hrest⟩ | ⟨stop, hnodes, rfl⟩
  · obtain ⟨r₁, hturns, hr⟩ := turnwise_of_ends_applyNodes hnodes
    cases hturns with
    | finished hseries =>
      cases hr
      exact .inr ⟨_, v, hseries, hrest⟩
    | stopped => cases hr
  · obtain ⟨r₁, hturns, hr⟩ := turnwise_of_ends_applyNodes hnodes
    cases r₁ with
    | ok as => cases hr
    | error stop' =>
      cases hr
      exact .inl ⟨stop, rfl, hturns⟩

/-- How far an apply run over the records comes past its preflight, begun in `w`. -/
inductive ApplyCourse (S : Setting σ) (options : ApplyOptions) (stabilize : Bool) (records : List Observation)
    (w : World σ) : Except Stop ApplyReport → World σ → Prop
  | unapplied {stop w'} (hturns : Turnwise (applyTurns S options stabilize) records w (.error stop) w') :
      ApplyCourse S options stabilize records w (.error stop) w'
  | applied {as w'} (hturns : Series (applyTurns S options stabilize) records w as w') :
      ApplyCourse S options stabilize records w (.ok { outcomes := (records.map (·.host)).zip as }) w'
  | started {as v r w'} (hturns : Series (applyTurns S options stabilize) records w as v)
      (hstarts : options.autoBootstrap = true ∧ options.dryRun = false)
      (hetcd : (Work.ensureEtcd (records.map (·.node))).Ends S v r w') :
      ApplyCourse S options stabilize records w
        (r.map fun etcd => { outcomes := (records.map (·.host)).zip as, etcd := some etcd }) w'

theorem applyCourse_of_ends {r : Except Stop ApplyReport}
    (h : (Work.applyEligible options records).Ends S w r w') :
    ApplyCourse S options (!options.skipPostApplyChecks && !allInMaintenance records) records w r w' := by
  rcases series_of_ends_applyNodes_bind h with ⟨stop, rfl, hturns⟩ | ⟨as, v, hturns, hrest⟩
  · exact .unapplied hturns
  split at hrest
  · next hstarts =>
    rw [Bool.and_eq_true, Bool.not_eq_true'] at hstarts
    rw [← map_eq_pure_bind] at hrest
    obtain ⟨r₁, hetcd, rfl⟩ := Work.ends_map_iff.1 hrest
    exact .started hturns hstarts hetcd
  · obtain ⟨rfl, rfl⟩ := Work.ends_pure_iff.1 hrest
    exact .applied hturns

theorem StartsEtcd.node?_eq {seed : Node} {c : Call} (h : StartsEtcd seed c) :
    c.node? = some seed := by
  rcases h with rfl | ⟨client, rfl, rfl | rfl | rfl⟩ <;> rfl

namespace Work

theorem Runs.applyNodes_inTurn (hlimit : S.limit = none) :
    (applyNodes options stabilize records).Runs S fun c => ∃ o ∈ records, InTurn o.node c :=
  .applyNodes fun o ho => .applyTurn hlimit (fun _ hc => ⟨o, ho, hc.inTurn⟩)
    fun _ _ _ hc => ⟨o, ho, hc.inTurn⟩

theorem Runs.ensureEtcd_inTurn (hlimit : S.limit = none) :
    (Work.ensureEtcd (records.map (·.node))).Runs S fun c => ∃ o ∈ records, InTurn o.node c := by
  refine (Runs.ensureEtcd hlimit).mono ?_
  rintro c ⟨seed, hseed, hc⟩
  obtain ⟨o, ho, rfl⟩ := List.mem_map.1 hseed
  exact ⟨o, ho, .inl hc.node?_eq⟩

theorem Runs.applyEligible_inTurn (hlimit : S.limit = none) :
    (applyEligible options records).Runs S fun c => ∃ o ∈ records, InTurn o.node c := by
  refine .bind (.applyNodes_inTurn hlimit) fun outcomes => ?_
  split
  · exact .bind (.ensureEtcd_inTurn hlimit) fun _ => .pure _
  · exact .pure _

end Work

theorem extends_of_ends_applyTurn (hlimit : S.limit = none) (o : Observation) (w : World σ)
    (r : Except Stop ApplyOutcome) (w' : World σ) (h : applyTurns S options stabilize o w r w') :
    w.Extends (InTurn o.node) w' :=
  (Work.watchedTurn_of_ends_applyTurn h).calls hlimit

theorem exists_gains_of_applyTurns (hlimit : S.limit = none) {r : Except Stop (List ApplyOutcome)}
    (h : Turnwise (applyTurns S options stabilize) records w r w') : ∃ es, w.Gains w' es := by
  obtain ⟨es, hes, -⟩ := (h.extends_of_turns (extends_of_ends_applyTurn hlimit)).gains
  exact ⟨es, hes⟩

end Rollout
