import Rollout.Proofs.Bootstrap.Course
import Rollout.Proofs.Cancellation.Heeding
import Rollout.Proofs.Reset.Course
import Rollout.Proofs.Upgrade.Course

/-!
# The strides of whole runs

Past its gathering, a run of any kind is strides: turns of the nodes that may take part, and for some runs
attempts to start etcd and attempts of the watchdog after them. Gathering does not look at the signal, but
only observes.
-/

namespace Rollout

variable {σ α β : Type} {act : Observation → Work σ α} {S : Setting σ} {w w' : World σ}
  {eligible : List Observation}

namespace Work

/-- A run that goes on with those of the gathered records that a check lets through. -/
def onGathered (check : List Observation → Except Error (List Observation))
    (go : List Observation → Work σ β) : Work σ β := do
  go (← ofExcept (check (← gather)))

end Work

/-- A run of this kind: what was gathered, the strides that followed and where they began, and what they
came to. `Q` holds of the nodes that took part, the value and the errands that led to it. -/
structure Course (act : Observation → Work σ α) (S : Setting σ)
    (check : List Observation → Except Error (List Observation))
    (Q : List Observation → β → List Errand → Prop) (w : World σ) (r : Except Stop β) (w' : World σ)
    (gathered : List Entry) (w₁ : World σ) (ss : List (Stride σ)) : Prop where
  gathers : w.Gains w₁ gathered
  observes : ∀ e ∈ gathered, Observes e.call
  strides : Strides act S w₁ ss w'
  value : ∀ b, r = .ok b → ∃ records eligible, Work.gather.Ends S w (.ok records) w₁ ∧
    check records = .ok eligible ∧ Closed S w₁ ss w' ∧ Q eligible b (ss.map Stride.errand)

theorem Course.gains {check : List Observation → Except Error (List Observation)}
    {Q : List Observation → β → List Errand → Prop} {r : Except Stop β} {gathered : List Entry}
    {w₁ : World σ} {ss : List (Stride σ)} (h : Course act S check Q w r w' gathered w₁ ss) :
    w.Gains w' (gathered ++ ss.flatMap Stride.log) :=
  h.gathers.trans h.strides.gains

theorem exists_course {check : List Observation → Except Error (List Observation)}
    {go : List Observation → Work σ β} {Q : List Observation → β → List Errand → Prop}
    {r : Except Stop β} (hgo : ∀ eligible, (go eligible).Heeds act S (Q eligible))
    (h : (Work.onGathered check go).Ends S w r w') :
    ∃ gathered w₁ ss, Course act S check Q w r w' gathered w₁ ss := by
  rcases Work.ends_bind_iff.1 h with ⟨records, w₁, hgather, hrest⟩ | ⟨stop, hgather, rfl⟩
  · obtain ⟨gathered, hgains, hall⟩ := (hgather.extends .gather).gains
    rcases Work.ends_ofExcept_bind_iff.1 hrest with ⟨eligible, hcheck, hgo'⟩ | ⟨e, -, rfl, rfl⟩
    · obtain ⟨ss, hss, hok⟩ := hgo eligible w₁ r w' hgo'
      exact ⟨gathered, w₁, ss, hgains, fun e he => (hall e he).1, hss,
        fun b hr => ⟨records, eligible, hgather, hcheck, hok b hr⟩⟩
    · exact ⟨gathered, w', [], hgains, fun e he => (hall e he).1, .nil, nofun⟩
  · obtain ⟨gathered, hgains, hall⟩ := (hgather.extends .gather).gains
    exact ⟨gathered, w', [], hgains, fun e he => (hall e he).1, .nil, nofun⟩

/-! ## Applying -/

/-- The errands of an apply run: the turns, and if etcd is asked for attempts to start it. -/
structure ApplyErrands (options : ApplyOptions) (stabilize : Bool) (eligible : List Observation)
    (outcomes : List (String × ApplyOutcome)) (etcd : Option EtcdOutcome) (es : List Errand) :
    Prop where
  split : ∃ as turns starts, es = turns ++ starts ∧ outcomes = (eligible.map (·.host)).zip as ∧
    Work.Pieces (TurnErrands (options.watches stabilize)) eligible as turns ∧
    (etcd = none → starts = []) ∧ ∀ e ∈ starts, ∃ seed, e = .start seed

theorem ApplyErrands.mem {options : ApplyOptions} {stabilize : Bool}
    {outcomes : List (String × ApplyOutcome)} {etcd : Option EtcdOutcome} {es : List Errand}
    (h : ApplyErrands options stabilize eligible outcomes etcd es) : ∀ o ∈ eligible, .turn o ∈ es := by
  obtain ⟨as, turns, starts, rfl, -, hturns, -, -⟩ := h
  intro o ho
  exact List.mem_append_left _ (hturns.mem (fun _ _ _ hq => hq.mem) o ho)

namespace Work.Heeds

variable {options : ApplyOptions} {stabilize : Bool}

protected theorem applyNodes (hlimit : S.limit = none) :
    (applyNodes options stabilize eligible).Heeds (applyNode · options) S fun outcomes es =>
      ∃ as, outcomes = (eligible.map (·.host)).zip as ∧
        Pieces (TurnErrands (options.watches stabilize)) eligible as es := by
  rw [applyNodes_eq]
  refine .map (.imp (.mapM (fun o => ?_) eligible) fun as es hpieces => ⟨as, rfl, hpieces⟩)
  rw [applyTurn_eq]
  exact .watchedTurn hlimit (Runs.applyNode.mono fun _ _ => trivial)

protected theorem applyEligible (hlimit : S.limit = none) :
    (applyEligible options eligible).Heeds (applyNode · options) S fun report es =>
      ApplyErrands options (!options.skipPostApplyChecks && !allInMaintenance eligible) eligible
        report.outcomes report.etcd es := by
  refine .bind (.applyNodes hlimit) fun outcomes turns => ?_
  rintro ⟨as, houtcomes, hturns⟩
  split
  · refine .bind (.ensureEtcd hlimit) fun etcd starts hstarts => .pure ?_
    rw [List.append_nil]
    refine ⟨as, turns, starts, rfl, houtcomes, hturns, nofun, ?_⟩
    rcases hstarts with ⟨-, rfl⟩ | ⟨seed, -, -, hall⟩
    · simp
    · exact fun e he => ⟨seed, hall e he⟩
  · exact .pure ⟨as, turns, [], by simp, houtcomes, hturns, fun _ => rfl, by simp⟩

end Work.Heeds

theorem exists_course_of_ends_apply {options : ApplyOptions} {r : Except Stop ApplyReport}
    (hlimit : S.limit = none) (h : (Work.apply options).Ends S w r w') :
    ∃ gathered w₁ ss, Course (Work.applyNode · options) S options.policy.check
      (fun eligible report => ApplyErrands options
        (!options.skipPostApplyChecks && !allInMaintenance eligible) eligible report.outcomes report.etcd)
      w r w' gathered w₁ ss :=
  exists_course (fun _ => .applyEligible hlimit) h

/-! ## Upgrading and resetting -/

theorem Work.Heeds.upgradeNodes {options : UpgradeOptions} (hlimit : S.limit = none) :
    (Work.upgradeNodes options eligible).Heeds (upgradeCall · options) S fun outcomes es =>
      ∃ as, outcomes = (eligible.map (·.host)).zip as ∧
        Pieces (TurnErrands (· == .upgraded)) eligible as es := by
  rw [upgradeNodes_eq]
  refine .map (.imp (.mapM (fun o => ?_) eligible) fun as es hpieces => ⟨as, rfl, hpieces⟩)
  rw [upgradeTurn_eq]
  exact .watchedTurn hlimit (Runs.upgradeCall.mono fun _ _ => trivial)

theorem exists_course_of_ends_upgrade {options : UpgradeOptions}
    {r : Except Stop (List (String × UpgradeOutcome))} (hlimit : S.limit = none)
    (h : (Work.upgrade options).Ends S w r w') :
    ∃ gathered w₁ ss, Course (Work.upgradeCall · options) S options.policy.check
      (fun eligible outcomes es => ∃ as, outcomes = (eligible.map (·.host)).zip as ∧
        Work.Pieces (TurnErrands (· == .upgraded)) eligible as es) w r w' gathered w₁ ss :=
  exists_course (fun _ => .upgradeNodes hlimit) h

theorem Work.Heeds.resetNodes {options : ResetOptions} {tally : ResetTally} :
    (Work.resetNodes options tally eligible).Heeds (resetNode · options) S fun _ es =>
      ∃ as : List ResetOutcome, Pieces (fun o _ es => es = [.turn o]) eligible as es := by
  rw [resetNodes_eq]
  refine .map (.imp (.mapM (fun o => ?_) eligible) fun as es hpieces => ⟨as, hpieces⟩)
  exact .turn (Runs.resetNode.mono fun _ _ => trivial)

/-- A reset lets all nodes through. -/
theorem exists_course_of_ends_reset {options : ResetOptions} {r : Except Stop ResetTally}
    (h : (Work.reset options).Ends S w r w') :
    ∃ gathered w₁ ss, Course (Work.resetNode · options) S .ok
      (fun eligible _ es => ∃ as : List ResetOutcome,
        Work.Pieces (fun o _ es => es = [.turn o]) eligible as es) w r w' gathered w₁ ss := by
  have hall : (Work.onGathered .ok (Work.resetNodes options {})).Ends S w r w' := h
  exact exists_course (fun _ => .resetNodes) hall

/-! ## Bootstrapping -/

/-- The errands of a bootstrap: the turns, the attempts to start etcd, and the watchdogs of all nodes. -/
structure BootstrapErrands (confirm : Bool) (eligible : List Observation)
    (outcomes : List (String × ApplyOutcome)) (es : List Errand) : Prop where
  split : ∃ front units watches etcd, es = front ++ watches ∧
    ApplyErrands { confirm } false eligible outcomes etcd front ∧
    Work.Pieces (fun node (_ : Unit) es => es ≠ [] ∧ ∀ e ∈ es, e = .watch node)
      (eligible.map (·.node)) units watches

theorem Work.Heeds.bootstrapEligible {confirm : Bool} (hlimit : S.limit = none) :
    (Work.bootstrapEligible confirm eligible).Heeds (applyNode · { confirm }) S fun report es =>
      BootstrapErrands confirm eligible report.outcomes es := by
  refine .bind (.applyNodes hlimit) fun outcomes turns => ?_
  rintro ⟨as, houtcomes, hturns⟩
  refine .bind (.ensureEtcd hlimit) fun etcd starts hstarts => ?_
  rw [waitAllStable_eq, bind_map_left]
  refine .bind (.mapM (fun node => .waitStable hlimit) _) fun units watches hwatches => .pure ?_
  rw [List.append_nil, ← List.append_assoc]
  refine ⟨turns ++ starts, units, watches, some etcd, rfl, ?_, hwatches⟩
  refine ⟨as, turns, starts, rfl, houtcomes, hturns, nofun, ?_⟩
  rcases hstarts with ⟨-, rfl⟩ | ⟨seed, -, -, hall⟩
  · simp
  · exact fun e he => ⟨seed, hall e he⟩

/-- A bootstrap whose first node is no control-plane node has no course. -/
theorem exists_course_of_ends_bootstrap {confirm : Bool} {r : Except Stop BootstrapReport}
    (hlimit : S.limit = none) (h : (Work.bootstrap confirm).Ends S w r w') :
    (∃ gathered w₁ ss, Course (Work.applyNode · { confirm }) S Policy.bootstrap.check
      (fun eligible report => BootstrapErrands confirm eligible report.outcomes) w r w' gathered w₁ ss) ∨
      (∃ stop, r = .error stop) ∧ w' = w := by
  rcases Work.ends_bootstrap_iff.1 h with ⟨-, h⟩ | ⟨e, -, hr, hw⟩
  · exact .inl (exists_course (fun _ => .bootstrapEligible hlimit) h)
  · exact .inr ⟨⟨_, hr⟩, hw⟩

end Rollout
