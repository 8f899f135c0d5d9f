import Rollout.Proofs.Apply.Rolling
import Rollout.Proofs.Preflight.Eligibility

/-!
# Apply runs

A run observes its nodes, holds the records against the policy and then configures what is left, one node
after the other. Without stabilization no node is watched at all.
-/

namespace Rollout

variable {σ : Type} {S : Setting σ} {options : ApplyOptions} {w w' : World σ}

def Call.Subscribes (c : Call) : Prop := ∃ client, c = .request client .watch

theorem Applies.not_subscribes {node : Node} {c : Call} (h : Applies node c) : ¬ c.Subscribes := by
  rintro ⟨client, rfl⟩
  rcases h with h | ⟨client', data, dryRun, -, h⟩ | h <;> cases h

theorem Observes.not_commits {c : Call} (h : Observes c) : ¬ c.Commits := by
  rintro ⟨client, data, rfl⟩
  obtain ⟨node, step, h⟩ := h
  cases step <;> cases h

theorem Observes.not_subscribes {c : Call} (h : Observes c) : ¬ c.Subscribes := by
  obtain ⟨node, step, rfl⟩ := h
  rintro ⟨client, h⟩
  cases step <;> cases h

theorem StartsEtcd.not_subscribes {seed : Node} {c : Call} (h : StartsEtcd seed c) :
    ¬ c.Subscribes := by
  rintro ⟨client, rfl⟩
  rcases h with h | ⟨client', -, h | h | h⟩ <;> cases h

namespace Work

/-- The apply phase subscribes to the events of a node only if stabilization is on. -/
theorem Runs.applyEligible (hlimit : S.limit = none) (eligible : List Observation) :
    (applyEligible options eligible).Runs S
      fun c => c.Subscribes → options.Stabilizes eligible := by
  refine .bind (.applyNodes fun o _ => .applyTurn hlimit ?_ ?_) fun outcomes => ?_
  · intro c hc hsub
    exact absurd hsub hc.not_subscribes
  · intro outcome hwatched c _ _
    simp only [ApplyOptions.watches, Bool.and_eq_true, Bool.not_eq_true'] at hwatched
    exact ⟨hwatched.1.1.1, hwatched.1.2, hwatched.1.1.2⟩
  split
  · refine .bind ((Runs.ensureEtcd hlimit).mono ?_) fun _ => .pure _
    rintro c ⟨seed, -, hc⟩ hsub
    exact absurd hsub hc.not_subscribes
  · exact .pure _

theorem apply_eq :
    (Work.apply options : Work σ _) = guarded options.policy (applyEligible options) := rfl

theorem Runs.apply (hlimit : S.limit = none) : (apply options).Runs S fun _ => True := by
  refine .bind (Runs.gather.mono fun _ _ => trivial) fun records => ?_
  refine .bind (.ofExcept _) fun eligible => ?_
  exact (Runs.applyEligible hlimit eligible).mono fun _ _ => trivial

theorem hosts_of_ends_applyEligible {eligible : List Observation} {report : ApplyReport}
    (h : (applyEligible options eligible).Ends S w (.ok report) w') :
    report.outcomes.map (·.1) = eligible.map (·.host) := by
  generalize hr : (.ok report : Except Stop ApplyReport) = r at h
  cases applyCourse_of_ends h with
  | unapplied => cases hr
  | applied hturns =>
    cases hr
    exact hturns.map_fst_zip
  | @started _ _ r₁ _ hturns =>
    cases r₁ with
    | error => cases hr
    | ok etcd =>
      cases hr
      exact hturns.map_fst_zip

end Work

theorem nodup_of_check {nodes : List Node} {records eligible : List Observation}
    (hhosts : (nodes.map (·.host)).Nodup) (hnodes : records.map (·.node) = nodes)
    (h : options.policy.check records = .ok eligible) : (eligible.map (·.host)).Nodup := by
  have hrecords : records.map (·.host) = nodes.map (·.host) := by
    rw [← hnodes, List.map_map]
    rfl
  exact (hrecords ▸ hhosts).sublist ((Policy.sublist_of_check h).map _)

/-- A run that applies configurations always ends, and only observes its nodes first. If it gets past
the preflight with stabilization on, it rolls over the eligible nodes one at a time, and no two commits of
the run are less than a window apart; with stabilization off it subscribes to nothing more. A report has
one outcome for each eligible node, in visiting order. -/
theorem apply_rolls_in_turn (env : Environment σ) (cluster : Cluster) (nodes : List Node)
    (hhosts : (nodes.map (·.host)).Nodup) (signal : Signal) (options : ApplyOptions) (w : World σ) :
    let S : Setting σ := { environment := env, cluster, nodes, signal }
    ∃ r w', (Work.apply options).Ends S w r w' ∧
      ((∃ stop, Work.gather.Ends S w (.error stop) w' ∧ r = .error stop) ∨
        ∃ records w₁ log, Work.gather.Ends S w (.ok records) w₁ ∧ records.map (·.node) = nodes ∧
          w.Gains w₁ log ∧ (∀ e ∈ log, Observes e.call) ∧
          ((∃ e, options.policy.check records = .error e ∧ r = .error (.error e) ∧ w' = w₁) ∨
            ∃ eligible es, options.policy.check records = .ok eligible ∧ w₁.Gains w' es ∧
              (∀ report, r = .ok report →
                report.outcomes.map (·.1) = eligible.map (·.host)) ∧
              (options.Stabilizes eligible →
                RollsInTurn S options eligible w₁ w' es r ∧ Spaced (log ++ es)) ∧
              (¬ options.Stabilizes eligible → ∀ e ∈ es, ¬ e.call.Subscribes))) := by
  intro S
  have hlimit : S.limit = none := rfl
  obtain ⟨r, w', h, -⟩ : ∃ r w', (Work.apply options).Ends S w r w' ∧ _ := Work.Runs.apply hlimit w
  refine ⟨r, w', h, ?_⟩
  rcases Work.ends_bind_iff.1 h with ⟨records, w₁, hgather, hrest⟩ | ⟨stop, hgather, rfl⟩
  · have hnodes : records.map (·.node) = nodes := Work.nodes_of_ends_gather hgather
    obtain ⟨log, hlog, hobserves⟩ := (hgather.extends .gather).gains
    have hnone : commits log = [] := commits_eq_nil fun e he => (hobserves e he).1.not_commits
    refine .inr ⟨records, w₁, log, hgather, hnodes, hlog, fun e he => (hobserves e he).1, ?_⟩
    rcases Work.ends_ofExcept_bind_iff.1 hrest with ⟨eligible, hcheck, happly⟩ | ⟨e, hcheck, rfl, rfl⟩
    · have hreport (report : ApplyReport) (hr : r = .ok report) :
          report.outcomes.map (·.1) = eligible.map (·.host) :=
        Work.hosts_of_ends_applyEligible (hr ▸ happly)
      refine .inr ⟨eligible, ?_⟩
      by_cases hon : options.Stabilizes eligible
      · obtain ⟨es, hgains, hrolls⟩ :=
          rollsInTurn_of_ends hlimit hon (nodup_of_check hhosts hnodes hcheck) happly
        have hspaced : Spaced (log ++ es) := by
          unfold Spaced
          rw [commits_append, hnone]
          exact hrolls.spaced
        exact ⟨es, hcheck, hgains, hreport, fun _ => ⟨hrolls, hspaced⟩, fun hoff => absurd hon hoff⟩
      · obtain ⟨es, hgains, hcalls⟩ := (happly.extends (.applyEligible hlimit eligible)).gains
        exact ⟨es, hcheck, hgains, hreport, fun hon' => absurd hon' hon,
          fun _ e he hsub => hon ((hcalls e he).1 hsub)⟩
    · exact .inl ⟨e, hcheck, rfl, rfl⟩
  · exact .inl ⟨stop, hgather, rfl⟩

/-- An environment in which every call is answered at once, and every configuration changes something. -/
def obliging : Environment Unit where
  serve _ _ c :=
    { begun := ()
      delay := some 0
      finish := fun _ => ((), match c with
        | .connect _ => .ok .mutual
        | .render _ => .ok []
        | .display _ => .ok ()
        | .ask _ => .ok true
        | .request _ .status => .ok { stage := .running, readiness := { ready := true } }
        | .request _ .extensions => .ok []
        | .request _ .osVersion => .ok ""
        | .request _ (.applyConfiguration _ _) => .ok { mode := "auto", details := "", warnings := [] }
        | .request _ .bootstrap => .ok ()
        | .request _ (.reset _) => .ok ()
        | .request _ (.upgrade _) => .ok ()
        | .request _ .etcdMembers => .ok 1
        | .request _ (.serviceState _) => .ok (some "running")
        | .request _ .watch => .ok { events := [], closes := false }) }

def twoNodes : Setting Unit where
  environment := obliging
  cluster := { name := "test", endpoint := "https://a:6443" }
  nodes := [{ host := "a", role := .controlPlane }, { host := "b", role := .worker }]

def twoRecords : List Observation := (Work.gathered twoNodes { state := () }).records.toList

theorem apply_rolls_over_two_nodes :
    (twoNodes.nodes.map (·.host)).Nodup ∧
      ∃ r w₁ w' es, (Work.apply {}).Ends twoNodes { state := () } r w' ∧
        twoRecords.map (·.host) = ["a", "b"] ∧ w₁.Gains w' es ∧
        RollsInTurn twoNodes {} twoRecords w₁ w' es r := by
  have hhosts : (twoNodes.nodes.map (·.host)).Nodup := by decide
  have hplaces : (Work.gathered twoNodes { state := () }).places.isEmpty = true := by
    decide +kernel
  have hgather : Work.gather.Ends twoNodes { state := () } (.ok twoRecords)
      (Work.gathered twoNodes { state := () }).world := by
    have h := Work.result?_gather (S := twoNodes) (w := { state := () })
    rwa [if_pos hplaces] at h
  have hadmitted : ∀ o ∈ twoRecords, ({} : ApplyOptions).policy.admits o = true :=
    List.all_eq_true.1 (by decide +kernel)
  have hcheck : ({} : ApplyOptions).policy.check twoRecords = .ok twoRecords := by
    have hsome : twoRecords.isEmpty = false := by decide +kernel
    simp [Policy.check, List.filter_eq_self.2 hadmitted, hsome]
  have hstabilizes : ({} : ApplyOptions).Stabilizes twoRecords := ⟨rfl, rfl, by decide +kernel⟩
  obtain ⟨r, w', h, hcases⟩ := apply_rolls_in_turn obliging twoNodes.cluster twoNodes.nodes hhosts
    .never {} { state := () }
  rcases hcases with ⟨stop, hstop, -⟩ | ⟨records, w₁, log, hrecords, -, -, -, hcases⟩
  · cases (hgather.unique hstop).1
  obtain ⟨hr, -⟩ := hgather.unique hrecords
  cases hr
  rcases hcases with ⟨e, he, -⟩ | ⟨eligible, es, heligible, hgains, -, hon, -⟩
  · cases hcheck.symm.trans he
  · cases hcheck.symm.trans heligible
    exact ⟨hhosts, r, w₁, w', es, h, by decide +kernel, hgains, (hon hstabilizes).1⟩

end Rollout
