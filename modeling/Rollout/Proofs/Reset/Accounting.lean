import Rollout.Proofs.Apply.Evolution
import Rollout.Proofs.Preflight.AllOrNothing
import Rollout.Proofs.Reset.Visits

/-!
# The accounts of a reset run

A reset run comes to a tally that agrees with what its journal says of every node. A node is reset if there
is something to reset, the operator gives leave and it can be reached, and how it fares then is nobody's
business but its own: it is the same in any other run in which the node conducts itself the same way.
-/

namespace Rollout

variable {σ τ : Type} {options : ResetOptions}

def Environment.Says (env : Environment σ) (question : String) (yes : Bool) : Prop :=
  ∀ s t s', ((env.serve s t (.ask question)).finish s').2 = .ok yes

/-- What the journal `log` of the visits says of the nodes of a reset run, and what the run has counted. -/
structure ResetAccounts (options : ResetOptions) (nodes : List Node) (records : List Observation)
    (log : List Entry) (tally : ResetTally) : Prop where
  total : tally.total = nodes.length
  success : tally.success = nodes.countP fun node => log.any (Entry.acceptsReset node.host)
  failed : tally.failed = nodes.countP fun node => log.any (Entry.rejectsReset node.host)
  /-- Every node has its visit, in visiting order, and nobody else is called. -/
  in_order : records.map (·.node) = Node.inOrder nodes ∧
    (records.map (·.node)).Pairwise (Node.notAfter · ·) ∧
    ∃ visits, log = visits.flatten ∧
      List.Forall₂ (fun o visit => ∀ e ∈ visit, ResetCalls o e.call) records visits
  /-- A node is reset if and only if nothing speaks against it. -/
  called : ∀ o ∈ records, (∃ e ∈ log, e.resets o.host = true) ↔ o.stage ≠ .maintenance ∧
    (options.confirm = true → ∃ t, .answered t (.ask (Work.resetQuestion o.host)) (.ok true) ∈ log) ∧
    ∃ t channel, .answered t (.connect o.node) (.ok channel) ∈ log
  once : ∀ o ∈ records, log.countP (Entry.resets o.host) ≤ 1
  request : ∀ t client q, .sent t (.request client (.reset q)) ∈ log →
    q.graceful = options.graceful ∧ q.reboot = !options.shutdown ∧
      q.partitions = if options.full then [] else [⟨"STATE", true⟩, ⟨"EPHEMERAL", true⟩]

/-! ## Counting -/

theorem ResetTally.foldl_count (outcomes : List ResetOutcome) (t : ResetTally) :
    outcomes.foldl ResetTally.count t =
      { success := t.success + outcomes.count .success
        skipped := t.skipped + outcomes.count .skipped
        failed := t.failed + outcomes.count .failed } := by
  induction outcomes generalizing t with
  | nil => rfl
  | cons outcome rest ih =>
    rw [List.foldl_cons, ih]
    cases outcome <;> simp [ResetTally.count, Nat.add_assoc, Nat.add_comm 1]

theorem ResetTally.total_foldl_count (outcomes : List ResetOutcome) (t : ResetTally) :
    (outcomes.foldl ResetTally.count t).total = t.total + outcomes.length := by
  induction outcomes generalizing t with
  | nil => rfl
  | cons outcome rest ih =>
    rw [List.foldl_cons, ih]
    cases outcome <;> simp [ResetTally.count, ResetTally.total] <;> omega

namespace ResetVisit

variable {visits : List (ResetVisit options)}

/-- A count of nodes is a count of outcomes if the journal tells the outcome of each. -/
theorem countP_nodes {p : Node → Bool} {outcome : ResetOutcome}
    (hp : ∀ v ∈ visits, p v.record.node = (v.outcome == outcome)) :
    (visits.map (·.record.node)).countP p = (visits.map (·.outcome)).count outcome := by
  rw [List.count, List.countP_map, List.countP_map]
  exact List.countP_congr fun v hv => by rw [Function.comp_apply, Function.comp_apply, hp v hv]

theorem exists_resets_iff (hdistinct : (visits.map (·.record.host)).Nodup) {v : ResetVisit options}
    (hv : v ∈ visits) :
    (∃ e ∈ visits.flatMap log, e.resets v.record.host = true) ↔ v.record.stage ≠ .maintenance ∧
      (options.confirm = true → ∃ t, .answered t (.ask (Work.resetQuestion v.record.host)) (.ok true) ∈
        visits.flatMap log) ∧
      ∃ t channel, .answered t (.connect v.record.node) (.ok channel) ∈ visits.flatMap log := by
  have hsent : (∃ e ∈ visits.flatMap log, e.resets v.record.host = true) ↔
      ∃ e ∈ v.log, e.resets v.record.host = true :=
    exists_congr fun e => and_congr_left fun he =>
      mem_log_iff hdistinct hv (Entry.about_of_resets he)
  have hasked (t : Instant) :
      .answered t (.ask (Work.resetQuestion v.record.host)) (.ok true) ∈ visits.flatMap log ↔
        .answered t (.ask (Work.resetQuestion v.record.host)) (.ok true) ∈ v.log :=
    mem_log_iff hdistinct hv (.inr rfl)
  have hconnected (t : Instant) (channel : Channel) :
      .answered t (.connect v.record.node) (.ok channel) ∈ visits.flatMap log ↔
        .answered t (.connect v.record.node) (.ok channel) ∈ v.log :=
    mem_log_iff hdistinct hv (.inl ⟨v.record.node, rfl, rfl⟩)
  simp only [hsent, hasked, hconnected]
  exact v.trace.exists_resets_iff

theorem accounts {fleet : List Node} (hhosts : (fleet.map (·.host)).Nodup)
    (hnodes : visits.map (·.record.node) = Node.inOrder fleet) :
    ResetAccounts options fleet (visits.map (·.record)) (visits.flatMap log)
      ((visits.map (·.outcome)).foldl ResetTally.count {}) := by
  have hperm : (visits.map (·.record.node)).Perm fleet := hnodes ▸ List.mergeSort_perm ..
  have hdistinct : (visits.map (·.record.host)).Nodup := by
    have hmap := (hperm.map (·.host)).nodup_iff.2 hhosts
    rwa [List.map_map] at hmap
  have hrecords : (visits.map (·.record)).map (·.node) = Node.inOrder fleet := by
    rw [List.map_map]
    exact hnodes
  refine ⟨?_, ?_, ?_, ⟨hrecords, hrecords ▸ Node.pairwise_inOrder fleet, ?_⟩, ?_, ?_, ?_⟩
  · rw [ResetTally.total_foldl_count, List.length_map, ← hperm.length_eq, List.length_map]
    exact Nat.zero_add _
  · rw [ResetTally.foldl_count, ← hperm.countP_eq,
      countP_nodes fun v hv => any_acceptsReset hdistinct hv]
    exact Nat.zero_add _
  · rw [ResetTally.foldl_count, ← hperm.countP_eq,
      countP_nodes fun v hv => any_rejectsReset hdistinct hv]
    exact Nat.zero_add _
  · refine ⟨visits.map log, by rw [List.flatMap], ?_⟩
    rw [List.forall₂_map_left_iff, List.forall₂_map_right_iff]
    exact List.forall₂_same.2 fun v _ => v.trace.calls
  · intro o ho
    obtain ⟨v, hv, rfl⟩ := List.mem_map.1 ho
    exact exists_resets_iff hdistinct hv
  · intro o ho
    obtain ⟨v, hv, rfl⟩ := List.mem_map.1 ho
    rw [countP_log hdistinct hv fun _ => Entry.about_of_resets]
    exact v.trace.countP_resets_le_one
  · intro t client q hsent
    obtain ⟨v, -, hsent⟩ := List.mem_flatMap.1 hsent
    rw [v.trace.eq_request hsent]
    exact ⟨rfl, rfl, rfl⟩

end ResetVisit

/-! ## The fate of a node -/

section

variable {env : Environment σ} {s s' : σ} {es : List Entry} {o : Observation} {view : σ → τ}
  {conduct : Conduct τ} {yes : Bool}

theorem Environment.Says.eq_of_respond {question : String} (h : env.Says question yes) {t : Instant}
    {s₁ : σ} {a : Except Error Bool} (hresponse : env.respond s t (.ask question) = (s₁, a)) :
    a = .ok yes :=
  (congrArg Prod.snd hresponse).symm.trans (h s t _)

/-- Asking for leave does nothing to the node, and it is given if the operator says so. -/
theorem ResetLeave.evolves {leave : List Entry} (h : ResetLeave options o.host leave)
    (hconducts : env.Conducts o.node view conduct)
    (hreply : env.Says (Work.resetQuestion o.host) yes) (hes : env.Evolves s (leave ++ es) s') :
    (options.confirm = true → yes = true) ∧ ∃ s₁, view s₁ = view s ∧ env.Evolves s₁ es s' := by
  cases h with
  | waived hwaived => exact ⟨fun hconfirm => by simp [hwaived] at hconfirm, s, rfl, hes⟩
  | given =>
    obtain ⟨s₁, hresponse, hrest⟩ := hes.of_exchange
    have hyes := hreply.eq_of_respond hresponse
    have hkept : view s₁ = view s := hconducts.apart.respond (fun n hn => by cases hn) hresponse
    exact ⟨fun _ => (Except.ok.inj hyes).symm, s₁, hkept, hrest⟩

end

/-! ## The whole run -/

namespace Work

variable {S : Setting σ} {w w' : World σ} {tally : ResetTally}

protected theorem Accounted.requestReset {o : Observation} :
    (requestReset o options : Work σ _).Accounted := by
  refine .bind .connect fun a => ?_
  cases a with
  | error e => exact .pure _
  | ok client =>
    refine .bind .request fun answer => ?_
    cases answer <;> exact .pure _

protected theorem Accounted.resetNode {o : Observation} :
    (resetNode o options : Work σ _).Accounted := by
  rw [resetNode_eq]
  split
  · exact .pure _
  split
  · refine .bind .ask fun yes => ?_
    split
    · exact .requestReset
    · exact .pure _
  · exact .requestReset

protected theorem Accounted.resetTurn {o : Observation} :
    (resetTurn options o : Work σ _).Accounted :=
  .bind .checkpoint fun _ => .resetNode

theorem visits_of_ends_reset (h : (reset options).Ends S w (.ok tally) w') :
    ∃ (w₁ : World σ) (visits : List (ResetVisit options)),
      gather.Ends S w (.ok (visits.map (·.record))) w₁ ∧ w₁.Gains w' (visits.flatMap (·.log)) ∧
      Series (fun o => (resetTurn options o).Ends S) (visits.map (·.record)) w₁
        (visits.map (·.outcome)) w' ∧
      tally = (visits.map (·.outcome)).foldl ResetTally.count {} := by
  rcases ends_bind_iff.1 h with ⟨records, w₁, hgather, hrest⟩ | ⟨stop, -, hr⟩
  · rw [resetNodes_eq] at hrest
    obtain ⟨r, hturns, hr⟩ := ends_map_iff.1 hrest
    cases turnwise_of_ends_mapM hturns with
    | stopped => cases hr
    | finished hseries =>
      obtain ⟨visits, rfl, rfl, hlog⟩ :=
        hseries.exists_visits ResetVisit.record ResetVisit.outcome ResetVisit.log
          fun o w a w' hturn => by
            obtain ⟨es, hes, htrace⟩ := Leaves.resetTurn _ _ _ hturn
            exact ⟨⟨o, es, a, htrace a rfl⟩, rfl, rfl, hes⟩
      exact ⟨w₁, visits, hgather, hlog, hseries, Except.ok.inj hr⟩
  · cases hr

end Work

end Rollout
