import Rollout.Proofs.Run.Growth
import Rollout.Run.Retry

/-!
# The rounds of a retry

A retry is a chain of rounds that ask for another, then one that does not. `Budget.Round` lists what a
round can come to; with it no later proof has to look into the loop. A budget with a pause between its
attempts uses up time in every round, so its retries end.
-/

namespace Rollout

variable {σ ε α : Type}

/-- What one round of a retry, begun in the world `w`, comes to, and the world after it. The clock of
the budget started at `started`. -/
inductive Budget.Round (b : Budget) (work : Work σ (Attempt ε α)) (S : Setting σ) (started : Instant)
    (w : World σ) : Except Stop (Option (Except (RetryError ε) α)) → World σ → Prop
  /-- The signal is raised before the attempt. -/
  | cancelled (h : S.RaisedBy w.journal w.now) :
      Round b work S started w (.ok (some (.error .cancelled))) w
  | stopped {e : Stop} {w' : World σ} (h : ¬ S.RaisedBy w.journal w.now)
      (hwork : (b.attempt work).Ends S w (.error e) w') : Round b work S started w (.error e) w'
  | success {value : α} {w' : World σ} (h : ¬ S.RaisedBy w.journal w.now)
      (hwork : (b.attempt work).Ends S w (.ok (.success value)) w') :
      Round b work S started w (.ok (some (.ok value))) w'
  | fatal {error : ε} {w' : World σ} (h : ¬ S.RaisedBy w.journal w.now)
      (hwork : (b.attempt work).Ends S w (.ok (.fatal error)) w') :
      Round b work S started w (.ok (some (.error (.fatal error)))) w'
  | exhausted {reason : String} {w' : World σ} (h : ¬ S.RaisedBy w.journal w.now)
      (hwork : (b.attempt work).Ends S w (.ok (.retry reason)) w')
      (hbudget : b.total ≤ w'.now - started + b.interval) :
      Round b work S started w (.ok (some (.error (.exhausted (w'.now - started) reason)))) w'
  /-- The signal is raised before the pause is over, or just then. -/
  | interrupted {reason : String} {raised : Instant} {w₁ : World σ}
      (h : ¬ S.RaisedBy w.journal w.now)
      (hwork : (b.attempt work).Ends S w (.ok (.retry reason)) w₁)
      (hbudget : w₁.now - started + b.interval < b.total)
      (hraised : S.signal.raisedAt? w₁.journal = some raised) (hle : raised ≤ w₁.now + b.interval) :
      Round b work S started w (.ok (some (.error .cancelled))) (w₁.advance raised)
  | again {reason : String} {w₁ : World σ} (h : ¬ S.RaisedBy w.journal w.now)
      (hwork : (b.attempt work).Ends S w (.ok (.retry reason)) w₁)
      (hbudget : w₁.now - started + b.interval < b.total)
      (hquiet : ¬ S.RaisedBy w₁.journal (w₁.now + b.interval)) :
      Round b work S started w (.ok none) (w₁.advance (w₁.now + b.interval))

variable {b : Budget} {work : Work σ (Attempt ε α)} {S : Setting σ} {started : Instant}
  {w w' : World σ}

theorem Budget.Round.ends (hS : S.limit = none) {r : Except Stop (Option (Except (RetryError ε) α))}
    (h : b.Round work S started w r w') : (b.round work started).Ends S w r w' := by
  have hgo {f : Bool → Work σ (Option (Except (RetryError ε) α))}
      (hraised : ¬ S.RaisedBy w.journal w.now) (hf : (f false).Ends S w r w') :
      (Work.cancelled >>= f).Ends S w r w' :=
    (Work.ends_cancelled_iff.2 ⟨.inr ⟨hraised, rfl⟩, rfl⟩).bind hf
  cases h with
  | cancelled h =>
    exact (Work.ends_cancelled_iff.2 ⟨.inl ⟨h, rfl⟩, rfl⟩).bind (Work.ends_pure_iff.2 ⟨rfl, rfl⟩)
  | stopped h hwork => exact hgo h (hwork.bind_error _)
  | success h hwork => exact hgo h (hwork.bind (Work.ends_pure_iff.2 ⟨rfl, rfl⟩))
  | fatal h hwork => exact hgo h (hwork.bind (Work.ends_pure_iff.2 ⟨rfl, rfl⟩))
  | exhausted h hwork hbudget =>
    refine hgo h (hwork.bind ?_)
    unfold Work.Ends
    dsimp only
    rw [Work.result?_clock_bind, if_pos hbudget, Work.result?_pure]
  | @interrupted reason raised w₁ h hwork hbudget hraised hle =>
    refine hgo h (hwork.bind ?_)
    have hpause := (Work.ends_pause_iff hS).2 (.inl ⟨raised, hraised, hle, rfl, rfl⟩)
    unfold Work.Ends
    dsimp only
    rw [Work.result?_clock_bind, if_neg (Nat.not_le.2 hbudget)]
    exact hpause.bind (Work.ends_pure_iff.2 ⟨rfl, rfl⟩)
  | @again reason w₁ h hwork hbudget hquiet =>
    refine hgo h (hwork.bind ?_)
    have hpause := (Work.ends_pause_iff hS).2 (.inr ⟨hquiet, rfl, rfl⟩)
    unfold Work.Ends
    dsimp only
    rw [Work.result?_clock_bind, if_neg (Nat.not_le.2 hbudget)]
    exact hpause.bind (Work.ends_pure_iff.2 ⟨rfl, rfl⟩)

theorem Budget.exists_round {r₁ : Except Stop (Attempt ε α)} {w₁ : World σ}
    (hwork : (b.attempt work).Ends S w r₁ w₁) : ∃ r w', b.Round work S started w r w' := by
  by_cases h : S.RaisedBy w.journal w.now
  · exact ⟨_, _, .cancelled h⟩
  rcases r₁ with e | value | reason | error
  · exact ⟨_, _, .stopped h hwork⟩
  · exact ⟨_, _, .success h hwork⟩
  · rcases Nat.lt_or_ge (w₁.now - started + b.interval) b.total with hleft | hused
    · by_cases hpause : S.RaisedBy w₁.journal (w₁.now + b.interval)
      · obtain ⟨raised, hraised, hle⟩ := hpause
        exact ⟨_, _, .interrupted h hwork hleft hraised hle⟩
      · exact ⟨_, _, .again h hwork hleft hpause⟩
    · exact ⟨_, _, .exhausted h hwork hused⟩
  · exact ⟨_, _, .fatal h hwork⟩

theorem Budget.Round.of_ends (hS : S.limit = none)
    {r : Except Stop (Option (Except (RetryError ε) α))}
    (h : (b.round work started).Ends S w r w') : b.Round work S started w r w' := by
  have hround : ∃ r₁ w₁, b.Round work S started w r₁ w₁ := by
    rcases Work.ends_bind_iff.1 h with ⟨raised, w₁, hcancelled, hrest⟩ | ⟨e, hcancelled, -⟩
    · obtain ⟨⟨hraised, hr⟩ | ⟨-, hr⟩, rfl⟩ := Work.ends_cancelled_iff.1 hcancelled
      · exact ⟨_, _, .cancelled hraised⟩
      · cases hr
        rcases Work.ends_bind_iff.1 hrest with ⟨o, w₂, hwork, -⟩ | ⟨e, hwork, -⟩
        · exact exists_round hwork
        · exact exists_round hwork
    · obtain ⟨⟨-, hr⟩ | ⟨-, hr⟩, -⟩ := Work.ends_cancelled_iff.1 hcancelled <;> cases hr
  obtain ⟨r₁, w₁, hround⟩ := hround
  obtain ⟨rfl, rfl⟩ := h.unique (hround.ends hS)
  exact hround

theorem ends_attempt_iff_of_no_limit (hl : b.attemptLimit = none) {r : Except Stop (Attempt ε α)} :
    (b.attempt work).Ends S w r w' ↔ work.Ends S w r w' := by
  unfold Budget.attempt
  rw [hl]

/-- A limited attempt that does not end in time is to be repeated. -/
theorem ends_attempt_iff_of_limit {limit : Duration} (hl : b.attemptLimit = some limit)
    {r : Except Stop (Attempt ε α)} :
    (b.attempt work).Ends S w r w' ↔
      (∃ o, work.Ends (Work.limited S w limit) w (.ok o) w' ∧ r = .ok o) ∨
        (work.Ends (Work.limited S w limit) w (.error .overdue) w' ∧
          r = .ok (.retry (timeoutReason limit))) ∨
          ∃ e, work.Ends (Work.limited S w limit) w (.error (.error e)) w' ∧
            r = .error (.error e) := by
  unfold Budget.attempt
  rw [hl]
  dsimp only
  rw [Work.ends_bind_iff]
  constructor
  · rintro (⟨o, w₁, h, hr⟩ | ⟨e, h, rfl⟩)
    · rcases Work.ends_within_iff.1 h with ⟨o, hwork, ho⟩ | ⟨hwork, ho⟩ | ⟨e, hwork, ho⟩
      · cases ho
        obtain ⟨rfl, rfl⟩ := Work.ends_pure_iff.1 hr
        exact .inl ⟨o, hwork, rfl⟩
      · cases ho
        obtain ⟨rfl, rfl⟩ := Work.ends_pure_iff.1 hr
        exact .inr (.inl ⟨hwork, rfl⟩)
      · cases ho
    · rcases Work.ends_within_iff.1 h with ⟨o, hwork, ho⟩ | ⟨hwork, ho⟩ | ⟨e, hwork, ho⟩
      · cases ho
      · cases ho
      · cases ho
        exact .inr (.inr ⟨e, hwork, rfl⟩)
  · rintro (⟨o, h, rfl⟩ | ⟨h, rfl⟩ | ⟨e, h, rfl⟩)
    · exact .inl ⟨some o, w', Work.ends_within_iff.2 (.inl ⟨o, h, rfl⟩),
        Work.ends_pure_iff.2 ⟨rfl, rfl⟩⟩
    · exact .inl ⟨none, w', Work.ends_within_iff.2 (.inr (.inl ⟨h, rfl⟩)),
        Work.ends_pure_iff.2 ⟨rfl, rfl⟩⟩
    · exact .inr ⟨_, Work.ends_within_iff.2 (.inr (.inr ⟨e, h, rfl⟩)), rfl⟩

theorem Setting.not_raisedBy_of_never (hS : S.signal = .never) (journal : Journal) (time : Instant) :
    ¬ S.RaisedBy journal time := by
  simp [Setting.RaisedBy, hS, Signal.raisedAt?]

/-- The world `w'` begins the round after the one begun in `w`. -/
def Budget.Again (b : Budget) (work : Work σ (Attempt ε α)) (S : Setting σ) (started : Instant)
    (w w' : World σ) : Prop :=
  b.Round work S started w (.ok none) w'

theorem map_some_eq_ok_iff {r : Except Stop α} {a : α} :
    r.map some = .ok (some a) ↔ r = .ok a := by
  cases r <;> simp [Except.map]

theorem map_some_ne_ok_none {r : Except Stop α} : r.map some ≠ .ok none := by
  cases r <;> simp [Except.map]

theorem ends_retry_iff (hS : S.limit = none) {r : Except Stop (Except (RetryError ε) α)} :
    (retry b work).Ends S w r w' ↔
      ∃ w₁, Relation.ReflTransGen (b.Again work S w.now) w w₁ ∧
        b.Round work S w.now w₁ (r.map some) w' := by
  have hround {r : Except Stop (Option (Except (RetryError ε) α))} {w₁ w₂ : World σ} :
      (b.round work w.now).Ends S w₁ r w₂ ↔ b.Round work S w.now w₁ r w₂ :=
    ⟨fun h => .of_ends hS h, fun h => h.ends hS⟩
  have hagain : (b.round work w.now).Repeats S = b.Again work S w.now := by
    ext w₁ w₂
    exact hround
  unfold retry Work.Ends
  rw [Work.result?_clock_bind]
  refine Work.ends_untilSome_iff.trans ?_
  simp only [hagain, Work.Concludes, hround]

theorem ends_retry_of_raised (hS : S.limit = none) (h : S.RaisedBy w.journal w.now) :
    (retry b work).Ends S w (.ok (.error .cancelled)) w :=
  (ends_retry_iff hS).2 ⟨w, .refl, .cancelled h⟩

/-- Work that fails unless its retry succeeds ends when the retry does. -/
theorem ends_retryOrFail_iff {work : Work σ (Attempt Error α)} {exhausted : String → Error}
    {r : Except Stop α} :
    (retryOrFail b work exhausted).Ends S w r w' ↔
      (∃ outcome, (retry b work).Ends S w (.ok outcome) w' ∧
        r = (outcome.mapError (·.toError exhausted)).mapError .error) ∨
      ∃ e, (retry b work).Ends S w (.error e) w' ∧ r = .error e := by
  unfold retryOrFail
  simp only [Work.ends_bind_iff, Work.ends_ofExcept_iff]
  constructor
  · rintro (⟨outcome, w₁, h, rfl, rfl⟩ | h)
    · exact .inl ⟨outcome, h, rfl⟩
    · exact .inr h
  · rintro (⟨outcome, h, rfl⟩ | h)
    · exact .inl ⟨outcome, w', h, rfl, rfl⟩
    · exact .inr h

namespace Work

variable {P : Call → Prop}

theorem Runs.attempt (h : ∀ S, work.Runs S P) : (b.attempt work).Runs S P := by
  unfold Budget.attempt
  split
  · exact h S
  · refine .bind (.within _ h) fun outcome => ?_
    cases outcome with
    | none => exact .pure _
    | some outcome => exact .pure outcome

theorem Runs.round (h : ∀ S, work.Runs S P) : (b.round work started).Runs S P := by
  refine .bind .cancelled fun raised => ?_
  split
  · exact .pure _
  refine .bind (.attempt h) fun outcome => ?_
  cases outcome with
  | success value => exact .pure _
  | fatal error => exact .pure _
  | retry reason =>
    refine .bind .clock fun now => ?_
    dsimp only
    split
    · exact .pure _
    refine .bind (.pause _) fun raised => ?_
    split <;> exact .pure _

/-- Round by round the calls of the attempts are made, and the clock does not go back. -/
theorem extends_of_rounds (h : ∀ S, work.Runs S P)
    (hchain : Relation.ReflTransGen (b.Again work S started) w w') : w.Extends P w' := by
  induction hchain with
  | refl => exact .refl w
  | tail _ hagain ih =>
    cases hagain with
    | again _ hwork => exact ih.trans ((hwork.extends (.attempt h)).trans (.advance _ _))

/-- With a pause between attempts that all end, a retry ends: each round brings the end of the budget
nearer by at least the pause. -/
theorem Runs.retry (hS : S.limit = none) (hpause : 0 < b.interval) (h : ∀ S, work.Runs S P) :
    (retry b work).Runs S P := by
  intro w
  have hround : ∀ v v', w.now ≤ v.now → (b.round work w.now).Repeats S v v' →
      w.now ≤ v'.now ∧ w.now + b.total - v'.now < w.now + b.total - v.now := by
    intro v v' hv hround
    cases Budget.Round.of_ends hS hround with
    | @again reason v₁ _ hwork hbudget _ =>
      have hle : v.now ≤ v₁.now := (hwork.extends (.attempt h)).now_le
      simp only [World.advance_now]
      grind
  obtain ⟨r, w', hr, hextends⟩ := Runs.exists_ends_untilSome (.round h) (fun v => w.now ≤ v.now)
    (fun v => w.now + b.total - v.now) hround (le_refl w.now)
  refine ⟨r, w', ?_, hextends⟩
  unfold Rollout.retry Ends
  rwa [result?_clock_bind]

theorem Runs.retryOrFail {work : Work σ (Attempt Error α)} (hS : S.limit = none)
    (hpause : 0 < b.interval) (h : ∀ S, work.Runs S P) (exhausted : String → Error) :
    (retryOrFail b work exhausted).Runs S P :=
  .bind (.retry hS hpause h) fun _ => .ofExcept _

end Work
end Rollout
