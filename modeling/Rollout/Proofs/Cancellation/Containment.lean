import Rollout.Proofs.Apply.Run
import Rollout.Proofs.Cancellation.Changes
import Rollout.Proofs.Cancellation.Courses

/-!
# Cancellation is contained

Once the signal is raised, all that is left of a run is the gathering, which changes nothing, or the
stride that is in progress: no turn and no attempt begins any more. So one more change is sent at most,
whenever the signal comes.
-/

namespace Rollout

variable {σ α β : Type} {act : Observation → Work σ α} {S : Setting σ} {w w₁ w' : World σ}
  {gathered : List Entry} {ss : List (Stride σ)} {c : Instant}

/-- The signal is raised at `c` in a run that leaves what it gathered and its strides. -/
structure Contained (act : Observation → Work σ α) (S : Setting σ) (c : Instant)
    (gathered : List Entry) (ss : List (Stride σ)) : Prop where
  observes : ∀ e ∈ gathered, Observes e.call
  taken : ∀ s ∈ ss, s.Taken act S
  /-- No turn and no attempt begins after the signal. -/
  begun : ∀ s ∈ ss, s.begun.now ≤ c
  /-- What comes after it is in the last of them. -/
  earlier : ∀ before last, ss = before ++ [last] → ∀ s ∈ before, ∀ e ∈ s.log, e.time ≤ c
  /-- One change at most is sent after the signal. -/
  changes : (gathered ++ ss.flatMap Stride.log).countP (fun e => e.changes && decide (c < e.time)) ≤ 1

variable (hact : ∀ o, (act o).Runs S fun _ => True)
include hact

theorem Strides.earlier (h : Strides act S w₁ ss w') (hc : S.signal.raisedAt? w'.journal = some c) :
    ∀ before last, ss = before ++ [last] → ∀ s ∈ before, ∀ e ∈ s.log, e.time ≤ c := by
  intro before last hss s hs e he
  obtain ⟨-, hdone, hgains⟩ := h.forall_taken s (hss ▸ List.mem_append_left _ hs)
  have htime := ((hdone.extends hact).forall_mem hgains e he).2.2
  exact htime.trans (h.over_le hact hc hss s hs)

theorem Strides.contained (hchanges : ∀ o, (act o).ChangesAtMost 1 S)
    (hobserves : ∀ e ∈ gathered, Observes e.call) (h : Strides act S w₁ ss w')
    (hc : S.signal.raisedAt? w'.journal = some c) : Contained act S c gathered ss := by
  have hearlier := h.earlier hact hc
  refine ⟨hobserves, h.forall_taken, h.begun_le hact hc, hearlier, ?_⟩
  have hnone : gathered.countP (fun e => e.changes && decide (c < e.time)) = 0 := by
    refine List.countP_eq_zero.2 fun e he => ?_
    simp [Entry.changes_eq_false (hobserves e he).changes_eq]
  rw [List.countP_append, hnone, Nat.zero_add]
  rcases List.eq_nil_or_concat' ss with rfl | ⟨before, last, rfl⟩
  · exact Nat.zero_le 1
  · have hbefore : (before.flatMap Stride.log).countP (fun e => e.changes && decide (c < e.time)) = 0 := by
      refine List.countP_eq_zero.2 fun e he => ?_
      obtain ⟨s, hs, he⟩ := List.mem_flatMap.1 he
      simp [Nat.not_lt.2 (hearlier before last rfl s hs e he)]
    rw [List.flatMap_append, List.countP_append, hbefore, Nat.zero_add, List.flatMap_singleton]
    calc last.log.countP (fun e => e.changes && decide (c < e.time))
      _ ≤ last.log.countP Entry.changes :=
        List.countP_mono_left fun e _ he => (Bool.and_eq_true_iff.1 he).1
      _ ≤ 1 := (h.forall_taken last (by simp)).changes_le_one hchanges

omit hact

/-- How a run is contained, whenever the signal comes: it comes to a value only if all nodes that may take
part had their turns before. -/
def CancellationContained (act : Observation → Work σ α)
    (check : List Observation → Except Error (List Observation)) (S : Setting σ) (w : World σ)
    (r : Except Stop β) (w' : World σ) : Prop :=
  ∀ c, S.signal.raisedAt? w'.journal = some c → ∃ gathered ss,
    w.Gains w' (gathered ++ ss.flatMap Stride.log) ∧ Contained act S c gathered ss ∧
    ∀ b, r = .ok b → ∃ records eligible w₁, Work.gather.Ends S w (.ok records) w₁ ∧
      check records = .ok eligible ∧ ∀ o ∈ eligible, ∃ s ∈ ss, s.errand = .turn o ∧ s.begun.now ≤ c

theorem Course.cancellationContained {check : List Observation → Except Error (List Observation)}
    {Q : List Observation → β → List Errand → Prop} {r : Except Stop β}
    (hact : ∀ o, (act o).Runs S fun _ => True) (hchanges : ∀ o, (act o).ChangesAtMost 1 S)
    (hQ : ∀ eligible b es, Q eligible b es → ∀ o ∈ eligible, .turn o ∈ es)
    (h : Course act S check Q w r w' gathered w₁ ss) : CancellationContained act check S w r w' := by
  intro c hc
  have hcontained := h.strides.contained hact hchanges h.observes hc
  refine ⟨gathered, ss, h.gains, hcontained, fun b hr => ?_⟩
  obtain ⟨records, eligible, hgather, hcheck, -, hq⟩ := h.value b hr
  refine ⟨records, eligible, w₁, hgather, hcheck, fun o ho => ?_⟩
  obtain ⟨s, hs, herrand⟩ := List.mem_map.1 (hQ eligible b _ hq o ho)
  exact ⟨s, hs, herrand, hcontained.begun s hs⟩

theorem CancellationContained.of_error {check : List Observation → Except Error (List Observation)}
    {stop : Stop} : CancellationContained act check S w (.error stop : Except Stop β) w :=
  fun c _ => ⟨[], [], .refl w, ⟨by simp, by simp, by simp, by simp, Nat.zero_le 1⟩, nofun⟩

/-- Whenever the signal is raised, a run of each kind is contained. -/
theorem cancellation_is_contained (env : Environment σ) (cluster : Cluster) (nodes : List Node)
    (signal : Signal) (w : World σ) :
    let S : Setting σ := { environment := env, cluster, nodes, signal }
    (∀ options : ApplyOptions, ∃ r w', (Work.apply options).Ends S w r w' ∧
      CancellationContained (Work.applyNode · options) options.policy.check S w r w') ∧
    (∀ options : UpgradeOptions, ∃ r w', (Work.upgrade options).Ends S w r w' ∧
      CancellationContained (Work.upgradeCall · options) options.policy.check S w r w') ∧
    (∀ options : ResetOptions, ∃ r w', (Work.reset options).Ends S w r w' ∧
      CancellationContained (Work.resetNode · options) .ok S w r w') ∧
    ∀ confirm : Bool, ∃ r w', (Work.bootstrap confirm).Ends S w r w' ∧
      CancellationContained (Work.applyNode · { confirm }) Policy.bootstrap.check S w r w' := by
  intro S
  have hlimit : S.limit = none := rfl
  refine ⟨fun options => ?_, fun options => ?_, fun options => ?_, fun confirm => ?_⟩
  · obtain ⟨r, w', h, -⟩ := (Work.Runs.apply hlimit : (Work.apply options).Runs S _) w
    obtain ⟨gathered, w₁, ss, hcourse⟩ := exists_course_of_ends_apply hlimit h
    exact ⟨r, w', h, hcourse.cancellationContained (fun _ => Work.Runs.applyNode.mono fun _ _ => trivial)
      (fun _ => .applyNode) fun _ _ _ hq => hq.mem⟩
  · obtain ⟨r, w', h, -⟩ := (Work.Runs.upgrade hlimit : (Work.upgrade options).Runs S _) w
    obtain ⟨gathered, w₁, ss, hcourse⟩ := exists_course_of_ends_upgrade hlimit h
    refine ⟨r, w', h, hcourse.cancellationContained (fun _ => Work.Runs.upgradeCall.mono fun _ _ => trivial)
      (fun _ => .upgradeCall) ?_⟩
    rintro _ _ _ ⟨as, -, hturns⟩
    exact hturns.mem fun _ _ _ hq => hq.mem
  · obtain ⟨r, w', h, -⟩ := (Work.Runs.reset : (Work.reset options).Runs S _) w
    obtain ⟨gathered, w₁, ss, hcourse⟩ := exists_course_of_ends_reset h
    refine ⟨r, w', h, hcourse.cancellationContained (fun _ => Work.Runs.resetNode.mono fun _ _ => trivial)
      (fun _ => .resetNode) ?_⟩
    rintro _ _ _ ⟨as, hturns⟩
    exact hturns.mem fun _ _ _ hq => by simp [hq]
  · obtain ⟨r, w', h, -⟩ := (Work.Runs.bootstrap hlimit : (Work.bootstrap confirm).Runs S _) w
    refine ⟨r, w', h, ?_⟩
    rcases exists_course_of_ends_bootstrap hlimit h with ⟨gathered, w₁, ss, hcourse⟩ |
      ⟨⟨stop, rfl⟩, rfl⟩
    · refine hcourse.cancellationContained (fun _ => Work.Runs.applyNode.mono fun _ _ => trivial)
        (fun _ => .applyNode) ?_
      rintro _ _ _ ⟨front, units, watches, etcd, rfl, hfront, -⟩ o ho
      exact List.mem_append_left _ (hfront.mem o ho)
    · exact .of_error

end Rollout
