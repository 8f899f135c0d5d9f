import Rollout.Proofs.Apply.Run
import Rollout.Proofs.Cancellation.Changes
import Rollout.Proofs.Cancellation.Courses

/-!
# Interrupts

A run that is interrupted before it returns fails, unless the interrupt comes in its last stride: nothing
looks at the signal after that. Under the watchdog an interrupt is always seen, so a bootstrap, which ends
there, never comes to a value. Neither does a run whose last node was changed and is watched.
-/

namespace Rollout

variable {σ α β : Type} {act : Observation → Work σ α} {S : Setting σ} {w w₁ w' : World σ}
  {gathered : List Entry} {ss : List (Stride σ)} {c : Instant}

/-- The signal, raised at `c`, comes in a stride that the run ends with, and that is not under the
watchdog. -/
structure Unnoticed (act : Observation → Work σ α) (S : Setting σ) (c : Instant) (w' : World σ)
    (s : Stride σ) : Prop where
  taken : s.Taken act S
  ended : s.ended = w'
  begun : s.begun.now ≤ c
  unwatched : ∀ node, s.errand ≠ .watch node

/-- A run past its gathering that comes to a value in spite of an interrupt does so with its last stride. -/
theorem Strides.unnoticed (hact : ∀ o, (act o).Runs S fun _ => True) (h : Strides act S w₁ ss w')
    (hclosed : Closed S w₁ ss w') (hc : S.signal.raisedAt? w'.journal = some c) (hlt : c < w'.now) :
    ss = [] ∨ ∃ s, ss.getLast? = some s ∧ Unnoticed act S c w' s := by
  rcases List.eq_nil_or_concat' ss with rfl | ⟨before, last, rfl⟩
  · exact .inl rfl
  unfold Closed at hclosed
  rw [List.getLast?_concat] at hclosed
  refine .inr ⟨last, List.getLast?_concat, h.forall_taken last (by simp), hclosed.1,
    h.begun_le hact hc last (by simp), fun node hnode => ?_⟩
  exact Nat.not_le.2 hlt (hclosed.2 node hnode c hc)

variable {check : List Observation → Except Error (List Observation)}
  {Q : List Observation → β → List Errand → Prop} {r : Except Stop β}

theorem Course.unnoticed (hact : ∀ o, (act o).Runs S fun _ => True)
    (h : Course act S check Q w r w' gathered w₁ ss) (hc : S.signal.raisedAt? w'.journal = some c)
    (hlt : c < w'.now) :
    (∃ stop, r = .error stop) ∨ ∃ b records eligible, r = .ok b ∧
      Work.gather.Ends S w (.ok records) w₁ ∧ check records = .ok eligible ∧
      ((ss = [] ∧ Q eligible b []) ∨ ∃ s, ss.getLast? = some s ∧ Unnoticed act S c w' s ∧
        Q eligible b (ss.map Stride.errand)) := by
  cases r with
  | error stop => exact .inl ⟨stop, rfl⟩
  | ok b =>
    obtain ⟨records, eligible, hgather, hcheck, hclosed, hq⟩ := h.value b rfl
    refine .inr ⟨b, records, eligible, rfl, hgather, hcheck, ?_⟩
    rcases h.strides.unnoticed hact hclosed hc hlt with rfl | ⟨s, hs, hunnoticed⟩
    · exact .inl ⟨rfl, hq⟩
    · exact .inr ⟨s, hs, hunnoticed, hq⟩

/-! ## The last outcome -/

theorem Work.Pieces.length_eq {ι : Type} {R : ι → β → List Errand → Prop} {is : List ι} {bs : List β}
    {es : List Errand} (h : Pieces R is bs es) : bs.length = is.length := by
  induction h with
  | nil => rfl
  | cons _ _ ih => simp [ih]

/-- If the turns do not end under the watchdog, the last outcome did not ask for it. -/
theorem watched_eq_false {watched : α → Bool} {eligible : List Observation} {as : List α}
    {turns : List Errand} {errand : Errand} (hturns : Work.Pieces (TurnErrands watched) eligible as turns)
    (hlast : turns.getLast? = some errand) (hunwatched : ∀ node, errand ≠ .watch node) {x : String × α}
    (hx : ((eligible.map (·.host)).zip as).getLast? = some x) : watched x.2 = false := by
  have hne : eligible ≠ [] := by
    rintro rfl
    cases hturns
    cases hlast
  obtain ⟨o, a, front, back, -, ha, rfl, hq⟩ := hturns.last hne
  have hsnd : ((eligible.map (·.host)).zip as).map Prod.snd = as :=
    List.map_snd_zip (by simp [hturns.length_eq])
  have hxa : x.2 = a := by
    have hmap := congrArg (Option.map Prod.snd) hx
    rw [← List.getLast?_map, hsnd, ha] at hmap
    exact (Option.some.inj hmap).symm
  by_contra hnot
  have hback := hq.ends (by simpa [hxa] using hnot)
  rw [List.getLast?_append, hback, Option.some_or] at hlast
  exact hunwatched _ (Option.some.inj hlast).symm

theorem Policy.ne_nil_of_check {p : Policy} {records eligible : List Observation}
    (h : p.check records = .ok eligible) : eligible ≠ [] := by
  have hverdict := p.check_verdict records
  rw [h] at hverdict
  cases hverdict with
  | passed hsome =>
    obtain ⟨o, ho, hp⟩ := hsome
    exact List.ne_nil_of_mem (List.mem_filter.2 ⟨ho, by simpa using hp⟩)

theorem exists_watch_of_pieces {nodes : List Node} {units : List Unit} {watches : List Errand}
    (front : List Errand)
    (h : Work.Pieces (fun node (_ : Unit) es => es ≠ [] ∧ ∀ e ∈ es, e = .watch node) nodes units watches)
    (hne : nodes ≠ []) : ∃ node, (front ++ watches).getLast? = some (.watch node) := by
  obtain ⟨node, _, before, back, -, -, rfl, hback, hall⟩ := h.last hne
  exact ⟨node, by rw [← List.append_assoc]; exact getLast?_eq_of_forall hback hall⟩

theorem getLast?_errands {s : Stride σ} (h : ss.getLast? = some s) :
    (ss.map Stride.errand).getLast? = some s.errand := by
  rw [List.getLast?_map, h]
  rfl

/-! ## Runs of each kind -/

theorem Work.unnoticed_of_ends_apply {options : ApplyOptions} {r : Except Stop ApplyReport}
    (hlimit : S.limit = none) (h : (Work.apply options).Ends S w r w')
    (hc : S.signal.raisedAt? w'.journal = some c) (hlt : c < w'.now) :
    (∃ stop, r = .error stop) ∨
      ∃ report records eligible w₁ s, r = .ok report ∧ Work.gather.Ends S w (.ok records) w₁ ∧
        options.policy.check records = .ok eligible ∧ Unnoticed (Work.applyNode · options) S c w' s ∧
        (report.etcd = none → options.Stabilizes eligible →
          ∀ x, report.outcomes.getLast? = some x → x.2 ≠ .changed) := by
  obtain ⟨gathered, w₁, ss, hcourse⟩ := exists_course_of_ends_apply hlimit h
  rcases hcourse.unnoticed (fun _ => Work.Runs.applyNode.mono fun _ _ => trivial) hc hlt with herror |
    ⟨report, records, eligible, rfl, hgather, hcheck, ⟨-, hq⟩ | ⟨s, hs, hunnoticed, hq⟩⟩
  · exact .inl herror
  · obtain ⟨o, ho⟩ := List.exists_mem_of_ne_nil _ (Policy.ne_nil_of_check hcheck)
    exact absurd (hq.mem o ho) List.not_mem_nil
  · refine .inr ⟨report, records, eligible, w₁, s, rfl, hgather, hcheck, hunnoticed, ?_⟩
    obtain ⟨as, turns, starts, hes, houtcomes, hturns, hnone, -⟩ := hq
    intro hetcd hstabilizes x hx hchanged
    have hlast := getLast?_errands hs
    rw [hes, hnone hetcd, List.append_nil] at hlast
    rw [houtcomes] at hx
    have hquiet := watched_eq_false hturns hlast hunnoticed.unwatched hx
    simp [ApplyOptions.watches, hchanged, hstabilizes.1, hstabilizes.2] at hquiet

theorem Work.unnoticed_of_ends_upgrade {options : UpgradeOptions}
    {r : Except Stop (List (String × UpgradeOutcome))} (hlimit : S.limit = none)
    (h : (Work.upgrade options).Ends S w r w') (hc : S.signal.raisedAt? w'.journal = some c)
    (hlt : c < w'.now) :
    (∃ stop, r = .error stop) ∨
      ∃ outcomes s, r = .ok outcomes ∧ Unnoticed (Work.upgradeCall · options) S c w' s ∧
        ∀ x, outcomes.getLast? = some x → x.2 ≠ .upgraded := by
  obtain ⟨gathered, w₁, ss, hcourse⟩ := exists_course_of_ends_upgrade hlimit h
  rcases hcourse.unnoticed (fun _ => Work.Runs.upgradeCall.mono fun _ _ => trivial) hc hlt with herror |
    ⟨outcomes, records, eligible, rfl, hgather, hcheck, ⟨-, as, -, hturns⟩ |
      ⟨s, hs, hunnoticed, as, houtcomes, hturns⟩⟩
  · exact .inl herror
  · obtain ⟨o, ho⟩ := List.exists_mem_of_ne_nil _ (Policy.ne_nil_of_check hcheck)
    exact absurd (hturns.mem (fun _ _ _ hq => hq.mem) o ho) List.not_mem_nil
  · refine .inr ⟨outcomes, s, rfl, hunnoticed, fun x hx hupgraded => ?_⟩
    rw [houtcomes] at hx
    have hquiet := watched_eq_false hturns (getLast?_errands hs) hunnoticed.unwatched hx
    simp [hupgraded] at hquiet

theorem Work.unnoticed_of_ends_reset {options : ResetOptions} {r : Except Stop ResetTally}
    (h : (Work.reset options).Ends S w r w') (hc : S.signal.raisedAt? w'.journal = some c)
    (hlt : c < w'.now) :
    (∃ stop, r = .error stop) ∨
      ∃ tally, r = .ok tally ∧
        (S.nodes = [] ∨ ∃ s, Unnoticed (Work.resetNode · options) S c w' s) := by
  obtain ⟨gathered, w₁, ss, hcourse⟩ := exists_course_of_ends_reset h
  rcases hcourse.unnoticed (fun _ => Work.Runs.resetNode.mono fun _ _ => trivial) hc hlt with herror |
    ⟨tally, records, eligible, rfl, hgather, hcheck, ⟨-, as, hturns⟩ | ⟨s, hs, hunnoticed, -⟩⟩
  · exact .inl herror
  · -- Without a stride there was no node to reset.
    cases hcheck
    refine .inr ⟨tally, rfl, .inl ?_⟩
    cases records with
    | nil => exact (Work.nodes_of_ends_gather hgather).symm
    | cons o rest =>
      have hmem :=
        hturns.mem (fun o _ _ hq => (by simp [hq] : Errand.turn o ∈ _)) o List.mem_cons_self
      exact absurd hmem List.not_mem_nil
  · exact .inr ⟨tally, rfl, .inr ⟨s, hunnoticed⟩⟩

theorem Work.fails_of_ends_bootstrap {confirm : Bool} {r : Except Stop BootstrapReport}
    (hlimit : S.limit = none) (h : (Work.bootstrap confirm).Ends S w r w')
    (hc : S.signal.raisedAt? w'.journal = some c) (hlt : c < w'.now) :
    ∃ stop, r = .error stop := by
  rcases exists_course_of_ends_bootstrap hlimit h with ⟨gathered, w₁, ss, hcourse⟩ | ⟨herror, -⟩
  · rcases hcourse.unnoticed (fun _ => Work.Runs.applyNode.mono fun _ _ => trivial) hc hlt with herror |
      ⟨report, records, eligible, rfl, hgather, hcheck, hend⟩
    · exact herror
    have hne : eligible.map (·.node) ≠ [] := by simpa using Policy.ne_nil_of_check hcheck
    rcases hend with ⟨-, front, units, watches, etcd, hes, -, hwatches⟩ |
      ⟨s, hs, hunnoticed, front, units, watches, etcd, hes, -, hwatches⟩
    · obtain ⟨node, hlast⟩ := exists_watch_of_pieces front hwatches hne
      rw [← hes] at hlast
      cases hlast
    · obtain ⟨node, hlast⟩ := exists_watch_of_pieces front hwatches hne
      rw [← hes, getLast?_errands hs] at hlast
      exact absurd (Option.some.inj hlast) (hunnoticed.unwatched node)
  · exact herror

/-- A run of any kind that is interrupted before it returns fails, unless the interrupt comes in the last
stride and the watchdog does not have the last word. -/
theorem interrupted_run_fails_before_last_stride (env : Environment σ) (cluster : Cluster)
    (nodes : List Node) (signal : Signal) (w : World σ) :
    let S : Setting σ := { environment := env, cluster, nodes, signal }
    (∀ options : ApplyOptions, ∃ r w', (Work.apply options).Ends S w r w' ∧
      ∀ c, signal.raisedAt? w'.journal = some c → c < w'.now → (∃ stop, r = .error stop) ∨
        ∃ report records eligible w₁ s, r = .ok report ∧ Work.gather.Ends S w (.ok records) w₁ ∧
          options.policy.check records = .ok eligible ∧ Unnoticed (Work.applyNode · options) S c w' s ∧
          (report.etcd = none → options.Stabilizes eligible →
            ∀ x, report.outcomes.getLast? = some x → x.2 ≠ .changed)) ∧
    (∀ options : UpgradeOptions, ∃ r w', (Work.upgrade options).Ends S w r w' ∧
      ∀ c, signal.raisedAt? w'.journal = some c → c < w'.now → (∃ stop, r = .error stop) ∨
        ∃ outcomes s, r = .ok outcomes ∧ Unnoticed (Work.upgradeCall · options) S c w' s ∧
          ∀ x, outcomes.getLast? = some x → x.2 ≠ .upgraded) ∧
    (∀ options : ResetOptions, ∃ r w', (Work.reset options).Ends S w r w' ∧
      ∀ c, signal.raisedAt? w'.journal = some c → c < w'.now → (∃ stop, r = .error stop) ∨
        ∃ tally, r = .ok tally ∧ (nodes = [] ∨ ∃ s, Unnoticed (Work.resetNode · options) S c w' s)) ∧
    ∀ confirm : Bool, ∃ r w', (Work.bootstrap confirm).Ends S w r w' ∧
      ∀ c, signal.raisedAt? w'.journal = some c → c < w'.now → ∃ stop, r = .error stop := by
  intro S
  have hlimit : S.limit = none := rfl
  refine ⟨fun options => ?_, fun options => ?_, fun options => ?_, fun confirm => ?_⟩
  · obtain ⟨r, w', h, -⟩ := (Work.Runs.apply hlimit : (Work.apply options).Runs S _) w
    exact ⟨r, w', h, fun c hc hlt => Work.unnoticed_of_ends_apply hlimit h hc hlt⟩
  · obtain ⟨r, w', h, -⟩ := (Work.Runs.upgrade hlimit : (Work.upgrade options).Runs S _) w
    exact ⟨r, w', h, fun c hc hlt => Work.unnoticed_of_ends_upgrade hlimit h hc hlt⟩
  · obtain ⟨r, w', h, -⟩ := (Work.Runs.reset : (Work.reset options).Runs S _) w
    exact ⟨r, w', h, fun c hc hlt => Work.unnoticed_of_ends_reset h hc hlt⟩
  · obtain ⟨r, w', h, -⟩ := (Work.Runs.bootstrap hlimit : (Work.bootstrap confirm).Runs S _) w
    exact ⟨r, w', h, fun c hc hlt => Work.fails_of_ends_bootstrap hlimit h hc hlt⟩

/-- Half a second into a run over one node, whose reset takes a second. -/
def interruptedReset : Setting Unit where
  environment :=
    { serve := fun s t c =>
        { obliging.serve s t c with
          delay := some (if c.changes then Duration.seconds 1 else 0) } }
  cluster := twoNodes.cluster
  nodes := [{ host := "a", role := .controlPlane }]
  signal := .atTime (Duration.millis 500)

/-- The node is reset when the interrupt comes, and the run counts it as if nothing had come. -/
theorem interrupted_reset_succeeds :
    ∃ tally w', (Work.reset { confirm := false }).Ends interruptedReset { state := () } (.ok tally) w' ∧
      interruptedReset.signal.raisedAt? w'.journal = some (Duration.millis 500) ∧
      Duration.millis 500 < w'.now := by
  have hvalue : ((Work.reset { confirm := false }).result? interruptedReset { state := () }).map
      (fun x => (x.1.toOption, x.2.now)) = some (some { success := 1 }, Duration.seconds 1) := by
    decide +kernel
  obtain ⟨⟨r, w'⟩, hends, hpair⟩ := Option.map_eq_some_iff.1 hvalue
  obtain ⟨hr, hnow⟩ := Prod.mk.inj hpair
  cases r with
  | error stop => cases hr
  | ok tally =>
    refine ⟨tally, w', hends, rfl, ?_⟩
    rw [hnow]
    decide

end Rollout
