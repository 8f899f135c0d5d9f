import Rollout.Proofs.Run.Histories
import Rollout.Run.Preflight

/-!
# Who may take part

`Policy.Eligible` says when a record passes a policy, and `Verdict` what a preflight comes to, without
the order in which the obstacles are looked for. Every run that changes nodes begins with a preflight
over what it has gathered; `Guarded` says what comes of such a run.
-/

namespace Rollout

/-- The node was observed, is ready if that is asked for, and in a stage that the operation allows. -/
structure Policy.Eligible (p : Policy) (o : Observation) : Prop where
  observed : o.failure = none
  ready : p.requireReady = true → o.readiness.ready = true
  stage : o.stage ∈ p.stages

theorem Policy.admits_iff {p : Policy} {o : Observation} : p.admits o = true ↔ p.Eligible o := by
  unfold admits obstacle?
  rw [Option.isNone_iff_eq_none]
  constructor
  · intro h
    split at h
    · cases h
    next hfailure =>
    split at h
    · cases h
    next hready =>
    split at h
    · cases h
    next hstage =>
    refine ⟨hfailure, fun hrequire => ?_, by simpa using hstage⟩
    by_contra hnot
    exact hready (by simp [hrequire, hnot])
  · rintro ⟨hobserved, hready, hstage⟩
    have hnotReady : ¬ (p.requireReady && !o.readiness.ready) = true := by
      simpa using hready
    have hallowed : ¬ (!p.stages.contains o.stage) = true := by
      simpa using hstage
    rw [hobserved]
    dsimp only
    rw [if_neg hnotReady, if_neg hallowed]

instance (p : Policy) (o : Observation) : Decidable (p.Eligible o) :=
  decidable_of_iff _ Policy.admits_iff

inductive Policy.Verdict (p : Policy) (records : List Observation) :
    Except Error (List Observation) → Prop
  | nobody (h : ∀ o ∈ records, ¬ p.Eligible o) : Verdict p records (.error .noHealthyNodes)
  | obstructed (hsome : ∃ o ∈ records, p.Eligible o) (hobstacle : ∃ o ∈ records, ¬ p.Eligible o)
      (hstrict : p.skipProblematic = false) :
      Verdict p records (.error (.preflightFailed p.operation))
  | passed (hsome : ∃ o ∈ records, p.Eligible o)
      (hrest : p.skipProblematic = true ∨ ∀ o ∈ records, p.Eligible o) :
      Verdict p records (.ok (records.filter fun o => decide (p.Eligible o)))

theorem Policy.filter_admits (p : Policy) (records : List Observation) :
    records.filter p.admits = records.filter fun o => decide (p.Eligible o) := by
  refine List.filter_congr fun o _ => ?_
  rw [Bool.eq_iff_iff, decide_eq_true_iff, admits_iff]

theorem Policy.check_verdict (p : Policy) (records : List Observation) :
    p.Verdict records (p.check records) := by
  unfold check
  dsimp only
  rw [p.filter_admits records]
  by_cases hsome : ∃ o ∈ records, p.Eligible o
  · have hnonempty : (records.filter fun o => decide (p.Eligible o)).isEmpty = false := by
      simpa [List.isEmpty_eq_false_iff] using hsome
    rw [hnonempty, if_neg Bool.false_ne_true]
    by_cases hall : ∀ o ∈ records, p.Eligible o
    · have hlength : ¬ (records.filter fun o => decide (p.Eligible o)).length < records.length := by
        rw [List.length_filter_lt_length_iff_exists]
        simpa using hall
      simpa [hlength] using .passed hsome (.inr hall)
    · have hobstacle : ∃ o ∈ records, ¬ p.Eligible o := by
        simpa using hall
      have hlength : (records.filter fun o => decide (p.Eligible o)).length < records.length := by
        rw [List.length_filter_lt_length_iff_exists]
        simpa using hobstacle
      by_cases hskip : p.skipProblematic = true
      · simpa [hskip] using .passed hsome (.inl hskip)
      · have hstrict : p.skipProblematic = false := by simpa using hskip
        simpa [hlength, hstrict] using .obstructed hsome hobstacle hstrict
  · have hnobody : ∀ o ∈ records, ¬ p.Eligible o := fun o ho hp => hsome ⟨o, ho, hp⟩
    have hempty : (records.filter fun o => decide (p.Eligible o)).isEmpty = true := by
      simpa using hnobody
    rw [hempty, if_pos rfl]
    exact .nobody hnobody

theorem Policy.eq_filter_of_check {p : Policy} {records eligible : List Observation}
    (h : p.check records = .ok eligible) :
    eligible = records.filter fun o => decide (p.Eligible o) := by
  have hverdict := p.check_verdict records
  rw [h] at hverdict
  cases hverdict
  rfl

theorem Policy.sublist_of_check {p : Policy} {records eligible : List Observation}
    (h : p.check records = .ok eligible) : eligible.Sublist records := by
  rw [eq_filter_of_check h]
  exact List.filter_sublist

variable {σ α : Type}

namespace Work

/-- A run that goes on with what passes the preflight. -/
def guarded (p : Policy) (go : List Observation → Work σ α) : Work σ α := do
  go (← ofExcept (p.check (← gather)))

end Work

/-- A run begun in `w` is past its preflight in `w₁` and goes on with the eligible records; `gathered` is
what it has left in the journal. -/
inductive Passes (p : Policy) (S : Setting σ) (w : World σ) (gathered : List Entry)
    (eligible : List Observation) (w₁ : World σ) : Prop
  | intro {records} (hgather : Work.gather.Ends S w (.ok records) w₁)
      (hgathered : w.Gains w₁ gathered) (hcheck : p.check records = .ok eligible) :
      Passes p S w gathered eligible w₁

inductive Guarded (p : Policy) (go : List Observation → Work σ α) (S : Setting σ) (w : World σ) :
    Except Stop α → World σ → Prop
  /-- An answer never comes. -/
  | silent {w'} (hgather : Work.gather.Ends S w (.error .overdue) w') :
      Guarded p go S w (.error .overdue) w'
  | refused {records e w'} (hgather : Work.gather.Ends S w (.ok records) w')
      (hcheck : p.check records = .error e) : Guarded p go S w (.error (.error e)) w'
  | passed {gathered eligible w₁ r w'} (hpass : Passes p S w gathered eligible w₁)
      (hgo : (go eligible).Ends S w₁ r w') : Guarded p go S w r w'

namespace Work

variable {S : Setting σ} {w w' : World σ} {p : Policy} {go : List Observation → Work σ α}

theorem overdue_of_ends_gather {stop : Stop} (h : gather.Ends S w (.error stop) w') :
    stop = .overdue := by
  obtain ⟨hr, -⟩ := h.unique result?_gather
  split at hr <;> cases hr
  rfl

theorem guarded_of_ends {r : Except Stop α} (h : (guarded p go).Ends S w r w') :
    Guarded p go S w r w' := by
  rcases ends_bind_iff.1 h with ⟨records, w₁, hgather, hrest⟩ | ⟨stop, hgather, rfl⟩
  · rcases ends_ofExcept_bind_iff.1 hrest with ⟨eligible, hcheck, hgo⟩ | ⟨e, hcheck, rfl, rfl⟩
    · obtain ⟨gathered, hgathered, -⟩ := (hgather.extends .gather).gains
      exact .passed (.intro hgather hgathered hcheck) hgo
    · exact .refused hgather hcheck
  · obtain rfl := overdue_of_ends_gather hgather
    exact .silent hgather

protected theorem Runs.guarded {P : Call → Prop} (hobserves : ∀ c, Observes c → P c)
    (hgo : ∀ eligible, (go eligible).Runs S P) : (guarded p go).Runs S P :=
  .bind (Runs.gather.mono hobserves) fun _ => .bind (.ofExcept _) hgo

end Work

namespace Passes

variable {S : Setting σ} {w w₁ : World σ} {p : Policy} {gathered : List Entry}
  {eligible : List Observation}

theorem observes (h : Passes p S w gathered eligible w₁) : ∀ e ∈ gathered, Observes e.call := by
  obtain ⟨hgather, hgathered, -⟩ := h
  obtain ⟨es, hes, hall⟩ := (hgather.extends .gather).gains
  obtain rfl := hgathered.unique hes
  exact fun e he => (hall e he).1

theorem gains (h : Passes p S w gathered eligible w₁) : w.Gains w₁ gathered := by
  obtain ⟨-, hgathered, -⟩ := h
  exact hgathered

theorem sublist_nodes (h : Passes p S w gathered eligible w₁) :
    (eligible.map (·.node)).Sublist S.nodes := by
  obtain ⟨hgather, -, hcheck⟩ := h
  rw [← Work.nodes_of_ends_gather hgather]
  exact (p.sublist_of_check hcheck).map _

theorem nodup_hosts (h : Passes p S w gathered eligible w₁) (hhosts : (S.nodes.map (·.host)).Nodup) :
    (eligible.map (·.host)).Nodup := by
  have hsublist := h.sublist_nodes.map (·.host)
  rw [List.map_map] at hsublist
  exact hhosts.sublist hsublist

theorem attested (h : Passes p S w gathered eligible w₁) :
    ∃ records, Attests gathered records ∧ records.map (·.node) = S.nodes ∧
      eligible = records.filter fun o => decide (p.Eligible o) := by
  obtain ⟨hgather, hgathered, hcheck⟩ := h
  obtain ⟨log, hlog, hattests⟩ := Work.attests_of_ends_gather hgather
  obtain rfl := hgathered.unique hlog
  exact ⟨_, hattests, Work.nodes_of_ends_gather hgather, p.eq_filter_of_check hcheck⟩

/-- The configuration of an eligible record is the one that was rendered for its node. -/
theorem config_eq_some_iff (h : Passes p S w gathered eligible w₁)
    (hhosts : (S.nodes.map (·.host)).Nodup) {o : Observation} (ho : o ∈ eligible) {data : Bytes} :
    o.config = some data ↔ ∃ t, .answered t (.render o.node) (.ok data) ∈ gathered := by
  obtain ⟨records, hattests, hnodes, rfl⟩ := h.attested
  rw [← hnodes, List.map_map] at hhosts
  exact hattests.config_eq_some_iff hhosts (List.mem_of_mem_filter ho)

/-- An eligible record says what its node has replied. -/
theorem read (h : Passes p S w gathered eligible w₁) {o : Observation} (ho : o ∈ eligible) :
    o.StatusRead gathered ∧ o.SchematicRead gathered ∧ o.VersionRead gathered := by
  obtain ⟨records, hattests, -, rfl⟩ := h.attested
  obtain ⟨hmem, heligible⟩ := List.mem_filter.1 ho
  exact hattests.read hmem (of_decide_eq_true heligible).observed

end Passes
end Rollout
