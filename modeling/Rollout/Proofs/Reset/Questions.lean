import Rollout.Proofs.Apply.Run
import Rollout.Proofs.Reset.Accounting

/-!
# Questions that fail

A reset run counts whatever becomes of a node, with one exception: a question that cannot be put to the
operator ends the run with its error. The nodes before it have been reset by then, or skipped, and are not
accounted for; the node in question and those after it are not tried.
-/

namespace Rollout

variable {σ : Type}

/-- How a turn can fail while no signal is raised. -/
inductive ResetFailure (options : ResetOptions) (o : Observation) : List Entry → Stop → Prop
  /-- An answer never comes. -/
  | silent {es} : ResetFailure options o es .overdue
  | unasked {t t' e} (hstage : o.stage ≠ .maintenance) (hconfirm : options.confirm = true) :
      ResetFailure options o (exchange (.ask (Work.resetQuestion o.host)) t t' (.error e)) (.error e)

/-- What a reset run comes to while no signal is raised. -/
inductive ResetEnding (S : Setting σ) (options : ResetOptions) (w : World σ) :
    Except Stop ResetTally → World σ → Prop
  /-- Every node has been visited, and no question has failed. -/
  | tallied {visits : List (ResetVisit options)} {w₁ w' tally}
      (hgather : Work.gather.Ends S w (.ok (visits.map (·.record))) w₁)
      (hlog : w₁.Gains w' (visits.flatMap (·.log)))
      (hasked : ∀ t question e, .answered t (.ask question) (.error e) ∉ visits.flatMap (·.log))
      (htally : tally = (visits.map (·.outcome)).foldl ResetTally.count {})
      (htotal : tally.total = S.nodes.length) : ResetEnding S options w (.ok tally) w'
  /-- The question about `o` has failed. The nodes before it have been visited, the `later` ones not. -/
  | unasked {visits : List (ResetVisit options)} {o later w₁ w' t t' e}
      (hgather : Work.gather.Ends S w (.ok (visits.map (·.record) ++ o :: later)) w₁)
      (hstage : o.stage ≠ .maintenance) (hconfirm : options.confirm = true)
      (hlog : w₁.Gains w' (visits.flatMap (·.log) ++
        exchange (.ask (Work.resetQuestion o.host)) t t' (.error e))) :
      ResetEnding S options w (.error (.error e)) w'
  /-- The run waits for ever. -/
  | silent {w'} (h : ¬ S.environment.Answers fun _ => True) :
      ResetEnding S options w (.error .overdue) w'

/-- A question that fails ends its turn, so none has failed in one that is over. -/
theorem ResetTrace.asked {options : ResetOptions} {o : Observation} {es : List Entry} {a : ResetOutcome}
    (h : ResetTrace options o es a) (t : Instant) (question : String) (e : Error) :
    .answered t (.ask question) (.error e) ∉ es := by
  cases h with
  | bare => simp
  | declined => simp [exchange]
  | unreached _ hleave => cases hleave <;> simp [exchange]
  | called _ hleave => cases hleave <;> simp [exchange, opened]

namespace Work

variable {S : Setting σ} {options : ResetOptions} {o : Observation}

theorem Leaves.requestReset_failing :
    (requestReset o options : Work σ _).Leaves S fun _ r => ∀ stop, r = .error stop → stop = .overdue := by
  intro w r w' h
  rcases gains_of_ends_connect_bind h with ⟨e, w₁, hconnect, hrest⟩ |
    ⟨client, w₁, -, hconnect, hrest⟩ | ⟨hconnect, rfl⟩
  · obtain ⟨rfl, rfl⟩ := ends_pure_iff.1 hrest
    exact ⟨_, hconnect, by simp⟩
  · rcases gains_of_ends_call_bind hrest with ⟨answer, w₂, hreset, hrest⟩ | ⟨hreset, rfl⟩
    · rcases answer with e | ⟨⟩
      all_goals
        obtain ⟨rfl, rfl⟩ := ends_pure_iff.1 hrest
        exact ⟨_, hconnect.trans hreset, by simp⟩
    · exact ⟨_, hconnect.trans hreset, by simp⟩
  · exact ⟨_, hconnect, by simp⟩

theorem Leaves.resetNode_failing :
    (resetNode o options : Work σ _).Leaves S
      fun es r => ∀ stop, r = .error stop → ResetFailure options o es stop := by
  have hrequest (es : List Entry) : (requestReset o options : Work σ _).Leaves S
      fun es' r => ∀ stop, r = .error stop → ResetFailure options o (es ++ es') stop :=
    Leaves.requestReset_failing.imp fun es' r h stop hr => h stop hr ▸ .silent
  rw [resetNode_eq]
  split
  · exact .pure (by simp)
  next hstage =>
  have hstage : o.stage ≠ .maintenance := by simpa using hstage
  split
  · next hconfirm =>
    refine .bind (Q := Demanded (.ask (resetQuestion o.host)) id) .ask ?_ fun es yes _ => ?_
    · rintro es stop hes stop' ⟨⟩
      cases hes with
      | silent => exact .silent
      | refused => exact .unasked hstage hconfirm
    · split
      · exact hrequest es
      · exact .pure (by simp)
  · exact hrequest []

/-- A turn begins with nothing while no signal is raised. -/
theorem ends_resetTurn_iff (hsignal : S.signal = .never) {w w' : World σ}
    {r : Except Stop ResetOutcome} :
    (Work.resetTurn options o).Ends S w r w' ↔ (resetNode o options).Ends S w r w' := by
  have hquiet := Setting.not_raisedBy_of_never hsignal w.journal w.now
  have hcheck : (checkpoint : Work σ Unit).Ends S w (.ok ()) w :=
    ends_checkpoint_iff.2 ⟨.inr ⟨hquiet, rfl⟩, rfl⟩
  constructor
  · intro h
    rcases ends_bind_iff.1 h with ⟨⟨⟩, w₁, hfirst, hrest⟩ | ⟨stop, hfirst, -⟩
    · obtain ⟨-, rfl⟩ := hcheck.unique hfirst
      exact hrest
    · cases (hcheck.unique hfirst).1
  · intro h
    exact hcheck.bind h

theorem Succeeds.ne_error {α : Type} {x : Work σ α} (h : x.Succeeds S) {w w' : World σ} {stop : Stop} :
    ¬ x.Ends S w (.error stop) w' := by
  intro hends
  obtain ⟨a, w₁, hok⟩ := h w
  cases (hok.unique hends).1

theorem heard_resetNode (hlimit : S.limit = none) (hanswers : S.environment.Answers fun _ => True)
    {w w' : World σ} : ¬ (resetNode o options).Ends S w (.error .overdue) w' := by
  have hrequest : (requestReset o options : Work σ _).Succeeds S :=
    Succeeds.requestReset hlimit hanswers
  intro h
  rw [resetNode_eq] at h
  split at h
  · exact Succeeds.ne_error (.pure _) h
  split at h
  · rcases ends_bind_iff.1 h with ⟨yes, w₁, -, hrest⟩ | ⟨stop, hask, hr⟩
    · split at hrest
      · exact hrequest.ne_error hrest
      · exact Succeeds.ne_error (.pure _) hrest
    · cases hr
      rcases ends_bind_iff.1 hask with ⟨a, w₁, -, hrest⟩ | ⟨stop, hcall, -⟩
      · have hr := (ends_ofExcept_iff.1 hrest).1
        cases a <;> cases hr
      · exact Succeeds.ne_error (.call hlimit hanswers) hcall
  · exact hrequest.ne_error h

theorem visits_of_series {records : List Observation} {outcomes : List ResetOutcome} {w w' : World σ}
    (h : Series (fun o => (Work.resetTurn options o).Ends S) records w outcomes w') :
    ∃ visits : List (ResetVisit options), visits.map (·.record) = records ∧
      visits.map (·.outcome) = outcomes ∧ w.Gains w' (visits.flatMap (·.log)) := by
  refine h.exists_visits ResetVisit.record ResetVisit.outcome ResetVisit.log fun o w a w' hturn => ?_
  obtain ⟨es, hes, htrace⟩ := Leaves.resetTurn _ _ _ hturn
  exact ⟨⟨o, es, a, htrace a rfl⟩, rfl, rfl, hes⟩

theorem ending_of_ends_reset_ok {tally : ResetTally} {w w' : World σ}
    (h : (Work.reset options).Ends S w (.ok tally) w') : ResetEnding S options w (.ok tally) w' := by
  obtain ⟨w₁, visits, hgather, hlog, -, htally⟩ := visits_of_ends_reset h
  refine .tallied hgather hlog (fun t question e he => ?_) htally ?_
  · obtain ⟨v, -, hmem⟩ := List.mem_flatMap.1 he
    exact v.trace.asked t question e hmem
  · have hnodes := congrArg List.length (nodes_of_ends_gather hgather)
    rw [htally, ResetTally.total_foldl_count, ← hnodes]
    simp [ResetTally.total]

theorem ending_of_ends_reset_error (hsignal : S.signal = .never) (hlimit : S.limit = none) {stop : Stop}
    {w w' : World σ} (h : (Work.reset options).Ends S w (.error stop) w') :
    ResetEnding S options w (.error stop) w' := by
  rcases ends_bind_iff.1 h with ⟨records, w₁, hgather, hrest⟩ | ⟨stop', hgather, hr⟩
  · rw [resetNodes_eq] at hrest
    obtain ⟨r, hturns, hr⟩ := ends_map_iff.1 hrest
    cases turnwise_of_ends_mapM hturns with
    | finished => cases hr
    | stopped hitems hdone hstop =>
      cases hr
      obtain ⟨visits, rfl, rfl, hlog⟩ := visits_of_series hdone
      rw [hitems] at hgather
      rw [ends_resetTurn_iff hsignal] at hstop
      obtain ⟨es, hes, hfailure⟩ := Leaves.resetNode_failing _ _ _ hstop
      cases hfailure _ rfl with
      | silent => exact .silent fun hanswers => heard_resetNode hlimit hanswers hstop
      | unasked hstage hconfirm => exact .unasked hgather hstage hconfirm (hlog.trans hes)
  · cases hr
    obtain rfl := overdue_of_ends_gather hgather
    refine .silent fun hanswers => ?_
    obtain ⟨records, w₁, hgathered⟩ := ends_gather_of_answers (fun s t c _ => hanswers s t c trivial) w
    cases (hgathered.unique hgather).1

end Work

/-- While no signal is raised, a reset run comes to a tally that counts every node, unless a question to
the operator fails, which ends the run with its error, or a call is never answered. -/
theorem reset_fails_with_a_question_only (env : Environment σ) (cluster : Cluster) (nodes : List Node)
    (options : ResetOptions) (w : World σ) :
    let S : Setting σ := { environment := env, cluster, nodes }
    ∃ r w', (Work.reset options).Ends S w r w' ∧ ResetEnding S options w r w' := by
  intro S
  obtain ⟨r, w', h, -⟩ := (Work.Runs.reset : (Work.reset options).Runs S _) w
  refine ⟨r, w', h, ?_⟩
  cases r with
  | ok tally => exact Work.ending_of_ends_reset_ok h
  | error stop => exact Work.ending_of_ends_reset_error rfl rfl h

/-- The operator agrees to reset the first of two nodes, and cannot be asked about the second. -/
def cutOff : Setting Unit where
  environment :=
    { serve := fun s t c =>
        { obliging.serve s t c with
          finish := fun s' => match c with
            | .ask question =>
              ((), if question = Work.resetQuestion "b" then .error (.prompt "cut off") else .ok true)
            | c => (obliging.serve s t c).finish s' } }
  cluster := twoNodes.cluster
  nodes := twoNodes.nodes

def errorOf? {α : Type} : Except Stop α → Option Error
  | .error (.error e) => some e
  | _ => none

theorem eq_of_errorOf? {α : Type} {r : Except Stop α} {e : Error} (h : errorOf? r = some e) :
    r = .error (.error e) := by
  unfold errorOf? at h
  split at h <;> cases h
  rfl

/-- The first node is reset, and the run ends with the error of the second question. -/
theorem failed_question_ends_reset :
    ∃ w', (Work.reset {}).Ends cutOff { state := () } (.error (.error (.prompt "cut off"))) w' ∧
      w'.journal.toList.any (Entry.acceptsReset "a") = true ∧
      w'.journal.toList.any (Entry.resets "b") = false := by
  have hvalue : ((Work.reset {}).result? cutOff { state := () }).map (fun x =>
      (errorOf? x.1, x.2.journal.toList.any (Entry.acceptsReset "a"),
        x.2.journal.toList.any (Entry.resets "b"))) = some (some (.prompt "cut off"), true, false) := by
    decide +kernel
  obtain ⟨⟨r, w'⟩, hends, hvalue⟩ := Option.map_eq_some_iff.1 hvalue
  obtain ⟨hr, haccepted, hnot⟩ : _ ∧ _ ∧ _ := by simpa only [Prod.mk.injEq] using hvalue
  refine ⟨w', ?_, haccepted, hnot⟩
  rw [← eq_of_errorOf? hr]
  exact hends

end Rollout
