import Rollout.Proofs.Apply.Run
import Rollout.Proofs.Bootstrap.Course
import Rollout.Proofs.Inventory.VisitingOrder
import Rollout.Proofs.Upgrade.Course

/-!
# All or nothing

As long as a run observes its nodes it changes nothing. What it does then depends on which of them are
eligible: it stops at once, or it goes on with the eligible ones and leaves the others alone.
`AllOrNothing` says this of any run with a preflight; such a run is known by its policy and by the turns
it gives the nodes.
-/

namespace Rollout

variable {σ α β : Type}

/-- The eligible nodes are processed from `w` on: they have their turns in visiting order until one
fails, which is the end, and no others are called. -/
structure Processes (turn : Observation → World σ → Except Stop α → World σ → Prop)
    (eligible : List Observation) (w : World σ) (es : List Entry) (r : Except Stop β) (w' : World σ) :
    Prop where
  in_order : (eligible.map (·.node)).Pairwise (Node.notAfter · ·)
  turns : ∃ r₁ v front, Turnwise turn eligible w r₁ v ∧ w.Gains v front ∧ front <+: es ∧
    ∀ stop, r₁ = .error stop → r = .error stop ∧ v = w'
  calls : ∀ e ∈ es, ∃ o ∈ eligible, InTurn o.node e.call

/-- What a run does that has observed its nodes by `w`. -/
structure Decides (p : Policy)
    (turns : List Observation → Observation → World σ → Except Stop α → World σ → Prop)
    (records : List Observation) (w : World σ) (r : Except Stop β) (w' : World σ) : Prop where
  /-- Nobody is eligible: nothing more is done. -/
  nobody : (∀ o ∈ records, ¬ p.Eligible o) → r = .error (.error .noHealthyNodes) ∧ w' = w
  /-- Some are and some are not, which is not to be ignored: nothing more is done. -/
  obstructed : (∃ o ∈ records, p.Eligible o) → (∃ o ∈ records, ¬ p.Eligible o) →
    p.skipProblematic = false → r = .error (.error (.preflightFailed p.operation)) ∧ w' = w
  /-- Otherwise the eligible nodes are processed. A node of which no record is eligible is not called. -/
  processed : (∃ o ∈ records, p.Eligible o) →
    (p.skipProblematic = true ∨ ∀ o ∈ records, p.Eligible o) →
    ∃ eligible es, (eligible = records.filter fun o => decide (p.Eligible o)) ∧ w.Gains w' es ∧
      Processes (turns eligible) eligible w es r w' ∧
      ∀ node, (∀ o ∈ records, o.node = node → ¬ p.Eligible o) → ∀ e ∈ es, e.call.node? ≠ some node

/-- A run begun in `w` observes its nodes first and then decides; it may also be that an answer never
comes. The records attest what the nodes have answered. -/
inductive AllOrNothing (p : Policy)
    (turns : List Observation → Observation → World σ → Except Stop α → World σ → Prop)
    (S : Setting σ) (w : World σ) (r : Except Stop β) (w' : World σ) : Prop
  | unanswered {log} (hlog : w.Gains w' log) (hobserves : ∀ e ∈ log, Observes e.call)
      (hr : r = .error .overdue) : AllOrNothing p turns S w r w'
  | observed {records log w₁} (hgather : Work.gather.Ends S w (.ok records) w₁)
      (hnodes : records.map (·.node) = S.nodes) (hattests : Attests log records)
      (hlog : w.Gains w₁ log) (hobserves : ∀ e ∈ log, Observes e.call)
      (hdecides : Decides p turns records w₁ r w') : AllOrNothing p turns S w r w'

section

variable {p : Policy} {S : Setting σ} {w w' : World σ}
  {turns : List Observation → Observation → World σ → Except Stop α → World σ → Prop}
  {r : Except Stop β}

theorem Processes.spared {turn : Observation → World σ → Except Stop α → World σ → Prop}
    {eligible : List Observation} {es : List Entry} {node : Node}
    (h : Processes turn eligible w es r w') (hnode : ∀ o ∈ eligible, o.node ≠ node) :
    ∀ e ∈ es, e.call.node? ≠ some node := by
  intro e he hcall
  obtain ⟨o, ho, hc | hc⟩ := h.calls e he
  · exact hnode o ho (Option.some.inj (hc.symm.trans hcall))
  · cases hc.symm.trans hcall

theorem decides_of_check {records : List Observation} {x : Except Error (List Observation)}
    {w₁ : World σ} (hcheck : p.check records = x)
    (herror : ∀ e, x = .error e → r = .error (.error e) ∧ w' = w₁)
    (hok : ∀ eligible, x = .ok eligible →
      ∃ es, w₁.Gains w' es ∧ Processes (turns eligible) eligible w₁ es r w') :
    Decides p turns records w₁ r w' := by
  have hverdict := p.check_verdict records
  rw [hcheck] at hverdict
  cases hverdict with
  | nobody hnobody =>
    have hnot : ¬ ∃ o ∈ records, p.Eligible o := fun ⟨o, ho, h⟩ => hnobody o ho h
    exact ⟨fun _ => herror _ rfl, fun hsome => absurd hsome hnot, fun hsome => absurd hsome hnot⟩
  | obstructed hsome hobstacle hstrict =>
    refine ⟨fun hnobody => ?_, fun _ _ _ => herror _ rfl, fun _ hrest => ?_⟩
    · obtain ⟨o, ho, h⟩ := hsome
      exact absurd h (hnobody o ho)
    · rcases hrest with hskip | hall
      · cases hstrict.symm.trans hskip
      · obtain ⟨o, ho, h⟩ := hobstacle
        exact absurd (hall o ho) h
  | passed hsome hrest =>
    refine ⟨fun hnobody => ?_, fun _ hobstacle hstrict => ?_, fun _ _ => ?_⟩
    · obtain ⟨o, ho, h⟩ := hsome
      exact absurd h (hnobody o ho)
    · rcases hrest with hskip | hall
      · cases hstrict.symm.trans hskip
      · obtain ⟨o, ho, h⟩ := hobstacle
        exact absurd (hall o ho) h
    · obtain ⟨es, hes, hprocesses⟩ := hok _ rfl
      refine ⟨_, es, rfl, hes, hprocesses, fun node hnode => hprocesses.spared fun o ho hsame => ?_⟩
      obtain ⟨hmem, heligible⟩ := List.mem_filter.1 ho
      exact hnode o hmem hsame (of_decide_eq_true heligible)

/-- A run with a preflight is all or nothing if it calls only what it is given, in turns. -/
theorem allOrNothing_of_ends (go : List Observation → Work σ β)
    (hsorted : S.nodes.Pairwise (Node.notAfter · ·))
    (hcalls : ∀ eligible, (go eligible).Runs S fun c => ∃ o ∈ eligible, InTurn o.node c)
    (hturns : ∀ eligible w r w', (go eligible).Ends S w r w' → ∃ r₁ v front,
      Turnwise (turns eligible) eligible w r₁ v ∧ w.Gains v front ∧ (∃ rest, v.Gains w' rest) ∧
        ∀ stop, r₁ = .error stop → r = .error stop ∧ v = w')
    (h : (Work.guarded p go).Ends S w r w') : AllOrNothing p turns S w r w' := by
  cases Work.guarded_of_ends h with
  | silent hgather =>
    obtain ⟨log, hlog, hobserves⟩ := (hgather.extends .gather).gains
    exact .unanswered hlog (fun e he => (hobserves e he).1) rfl
  | @refused records e _ hgather hcheck =>
    obtain ⟨log, hlog, hattests⟩ := Work.attests_of_ends_gather hgather
    refine .observed hgather (Work.nodes_of_ends_gather hgather) hattests hlog ?_ ?_
    · exact fun e he => ((hgather.extends .gather).forall_mem hlog e he).1
    · refine decides_of_check hcheck ?_ ?_
      · rintro _ ⟨⟩
        exact ⟨rfl, rfl⟩
      · rintro _ ⟨⟩
  | @passed gathered eligible w₁ _ _ hpass hgo =>
    have hsublist := hpass.sublist_nodes
    obtain ⟨hgather, -, hcheck⟩ := hpass
    obtain ⟨log, hlog, hattests⟩ := Work.attests_of_ends_gather hgather
    refine .observed hgather (Work.nodes_of_ends_gather hgather) hattests hlog ?_ ?_
    · exact fun e he => ((hgather.extends .gather).forall_mem hlog e he).1
    · refine decides_of_check hcheck ?_ ?_
      · rintro _ ⟨⟩
      · rintro _ ⟨⟩
        obtain ⟨es, hes, hall⟩ := (hgo.extends (hcalls eligible)).gains
        obtain ⟨r₁, v, front, hturnwise, hfront, ⟨rest, hrest⟩, hstop⟩ := hturns _ _ _ _ hgo
        obtain rfl := hes.unique (hfront.trans hrest)
        refine ⟨_, hes, hsorted.sublist hsublist, ?_, fun e he => (hall e he).1⟩
        exact ⟨r₁, v, front, hturnwise, hfront, List.prefix_append .., hstop⟩

end

section

variable {S : Setting σ} {w w' : World σ} {eligible : List Observation}

/-- What is done after the turns does not take them back. -/
theorem exists_turns_of_ends_applyNodes_bind {options : ApplyOptions} {stabilize : Bool}
    {f : List (String × ApplyOutcome) → Work σ β} {r : Except Stop β} {P : Call → Prop}
    (hlimit : S.limit = none) (hf : ∀ outcomes, (f outcomes).Runs S P)
    (h : (Work.applyNodes options stabilize eligible >>= f).Ends S w r w') :
    ∃ r₁ v front, Turnwise (applyTurns S options stabilize) eligible w r₁ v ∧ w.Gains v front ∧
      (∃ rest, v.Gains w' rest) ∧ ∀ stop, r₁ = .error stop → r = .error stop ∧ v = w' := by
  rcases series_of_ends_applyNodes_bind h with ⟨stop, rfl, hturns⟩ | ⟨as, v, hturns, hrest⟩
  · obtain ⟨front, hfront⟩ := exists_gains_of_applyTurns hlimit hturns
    refine ⟨_, w', front, hturns, hfront, ⟨[], .refl w'⟩, ?_⟩
    rintro _ ⟨⟩
    exact ⟨rfl, rfl⟩
  · have hover : Turnwise (applyTurns S options stabilize) eligible w (.ok as) v := .finished hturns
    obtain ⟨front, hfront⟩ := exists_gains_of_applyTurns hlimit hover
    obtain ⟨rest, hgains, -⟩ := (hrest.extends (hf _)).gains
    refine ⟨_, v, front, hover, hfront, ⟨rest, hgains⟩, ?_⟩
    rintro _ ⟨⟩

theorem allOrNothing_of_ends_apply {options : ApplyOptions} {r : Except Stop ApplyReport}
    (hlimit : S.limit = none) (hsorted : S.nodes.Pairwise (Node.notAfter · ·))
    (h : (Work.apply options).Ends S w r w') :
    AllOrNothing options.policy (fun eligible => applyTurns S options
      (!options.skipPostApplyChecks && !allInMaintenance eligible)) S w r w' := by
  refine allOrNothing_of_ends (Work.applyEligible options) hsorted
    (fun _ => .applyEligible_inTurn hlimit) (fun eligible w r w' happly => ?_) h
  refine exists_turns_of_ends_applyNodes_bind (P := fun c => ∃ o ∈ eligible, InTurn o.node c) hlimit
    (fun outcomes => ?_) happly
  split
  · exact .bind (.ensureEtcd_inTurn hlimit) fun _ => .pure _
  · exact .pure _

theorem allOrNothing_of_ends_upgrade {options : UpgradeOptions}
    {r : Except Stop (List (String × UpgradeOutcome))} (hlimit : S.limit = none)
    (hsorted : S.nodes.Pairwise (Node.notAfter · ·)) (h : (Work.upgrade options).Ends S w r w') :
    AllOrNothing options.policy (fun _ => upgradeTurns S options) S w r w' := by
  refine allOrNothing_of_ends (Work.upgradeNodes options) hsorted
    (fun _ => .upgradeNodes hlimit) (fun eligible w r w' hupgrade => ?_) h
  obtain ⟨r₁, hturns, rfl⟩ := turnwise_of_ends_upgradeNodes hupgrade
  obtain ⟨front, hfront, -⟩ := (hturns.extends_of_turns (extends_of_ends_upgradeTurn hlimit)).gains
  refine ⟨r₁, w', front, hturns, hfront, ⟨[], .refl w'⟩, ?_⟩
  rintro stop rfl
  exact ⟨rfl, rfl⟩

theorem allOrNothing_of_ends_bootstrap {confirm : Bool} {r : Except Stop BootstrapReport}
    (hlimit : S.limit = none) (hsorted : S.nodes.Pairwise (Node.notAfter · ·))
    (h : (Work.guarded .bootstrap (Work.bootstrapEligible confirm)).Ends S w r w') :
    AllOrNothing .bootstrap (fun _ => applyTurns S { confirm } false) S w r w' := by
  refine allOrNothing_of_ends _ hsorted (fun _ => .bootstrapEligible hlimit)
    (fun eligible w r w' hbootstrap => ?_) h
  exact exists_turns_of_ends_applyNodes_bind hlimit (fun _ => .bootstrapRest hlimit) hbootstrap

end

/-- Whatever is answered and whenever the run is cancelled, a run that changes nodes ends, and it first
finds out which nodes are eligible: those that were observed, are ready, and are in a stage that the
operation allows. An apply run may be told not to ask for readiness, and a bootstrap cannot leave nodes
out. Without an eligible node, or with an obstacle that is not to be ignored, the run ends there and has
done nothing but observe; otherwise exactly the eligible nodes are processed, in visiting order, and no
other node is called any more. -/
theorem preflight_is_all_or_nothing (env : Environment σ) (cluster : Cluster) (fleet : List Node)
    (signal : Signal) (w : World σ) :
    let S : Setting σ := { environment := env, cluster, nodes := Node.inOrder fleet, signal }
    (∀ options : ApplyOptions, ∃ r w', (Work.apply options).Ends S w r w' ∧
      AllOrNothing
        { operation := .apply
          stages := [.maintenance, .booting, .running]
          requireReady := !options.allowNotReady
          skipProblematic := options.skipProblematic }
        (fun eligible => applyTurns S options
          (!options.skipPostApplyChecks && !allInMaintenance eligible)) S w r w') ∧
    (∀ options : UpgradeOptions, ∃ r w', (Work.upgrade options).Ends S w r w' ∧
      AllOrNothing
        { operation := .upgrade
          stages := [.running]
          requireReady := true
          skipProblematic := options.skipProblematic }
        (fun _ => upgradeTurns S options) S w r w') ∧
    ∀ confirm : Bool, ∃ r w', (Work.bootstrap confirm).Ends S w r w' ∧
      (checkSeed S.nodes = .ok () →
        AllOrNothing
          { operation := .bootstrap
            stages := [.maintenance]
            requireReady := true
            skipProblematic := false }
          (fun _ => applyTurns S { confirm } false) S w r w') := by
  intro S
  have hlimit : S.limit = none := rfl
  have hsorted : S.nodes.Pairwise (Node.notAfter · ·) := Node.pairwise_inOrder fleet
  refine ⟨fun options => ?_, fun options => ?_, fun confirm => ?_⟩
  · obtain ⟨r, w', h, -⟩ : ∃ r w', (Work.apply options).Ends S w r w' ∧ _ :=
      Work.Runs.apply hlimit w
    exact ⟨r, w', h, allOrNothing_of_ends_apply hlimit hsorted h⟩
  · obtain ⟨r, w', h, -⟩ : ∃ r w', (Work.upgrade options).Ends S w r w' ∧ _ :=
      Work.Runs.upgrade hlimit w
    exact ⟨r, w', h, allOrNothing_of_ends_upgrade hlimit hsorted h⟩
  · obtain ⟨r, w', h, -⟩ : ∃ r w', (Work.bootstrap confirm).Ends S w r w' ∧ _ :=
      Work.Runs.bootstrap hlimit w
    refine ⟨r, w', h, fun hseed => ?_⟩
    rcases Work.ends_bootstrap_iff.1 h with ⟨-, h⟩ | ⟨e, he, -, -⟩
    · exact allOrNothing_of_ends_bootstrap hlimit hsorted h
    · cases hseed.symm.trans he

end Rollout
