import Rollout.Proofs.Retry.Rounds

/-!
# The schedule of a retry

To a retry an attempt is a duration and an outcome. `Budget.Reference` says from a budget, the time of the
signal and a sequence of such attempts when each attempt starts, what the retry comes to and when; it
knows nothing of work, worlds or loops. Retrying attempts that behave like the sequence is exactly that.
-/

namespace Rollout

variable {ε α : Type}

/-- How long an attempt takes when nothing cuts it off, if it ever ends, and what it comes to then. -/
structure TimedAttempt (ε α : Type) where
  duration : Option Duration
  outcome : Attempt ε α

namespace TimedAttempt

/-- How long the attempt takes under a limit, and what it comes to; nothing if it never ends. -/
def under (a : TimedAttempt ε α) (limit : Option Duration) : Option (Duration × Attempt ε α) :=
  match a.duration, limit with
  | some d, none => some (d, a.outcome)
  | some d, some l =>
    if d ≤ l then some (d, a.outcome) else some (l, .retry (timeoutReason l))
  | none, some l => some (l, .retry (timeoutReason l))
  | none, none => none

/-- Makes the next attempt of the sequence. The state holds when attempts were started, the last
first. -/
def perform (script : ℕ → TimedAttempt ε α) : Work (List Instant) (Attempt ε α) := do
  let w ← get
  modify fun w => { w with state := w.now :: w.state }
  Work.waitUntil ((script w.state.length).duration.map (w.now + ·))
  return (script w.state.length).outcome

end TimedAttempt

/-- The attempts from number `k` on, which starts at `t`: their start times, the result of the whole and
the time it comes. -/
inductive Budget.Schedule (b : Budget) (raised : Option Instant) (script : ℕ → TimedAttempt ε α)
    (started : Instant) :
    ℕ → Instant → List Instant → Except (RetryError ε) α → Instant → Prop
  | success {k t d value} (h : (script k).under b.attemptLimit = some (d, .success value)) :
      Schedule b raised script started k t [t] (.ok value) (t + d)
  | fatal {k t d error} (h : (script k).under b.attemptLimit = some (d, .fatal error)) :
      Schedule b raised script started k t [t] (.error (.fatal error)) (t + d)
  | exhausted {k t d reason} (h : (script k).under b.attemptLimit = some (d, .retry reason))
      (hbudget : b.total ≤ t + d - started + b.interval) :
      Schedule b raised script started k t [t] (.error (.exhausted (t + d - started) reason)) (t + d)
  | cancelled {k t d reason c} (h : (script k).under b.attemptLimit = some (d, .retry reason))
      (hbudget : t + d - started + b.interval < b.total) (hraised : raised = some c)
      (hle : c ≤ t + d + b.interval) :
      Schedule b raised script started k t [t] (.error .cancelled) (max (t + d) c)
  | again {k t d reason starts r finish}
      (h : (script k).under b.attemptLimit = some (d, .retry reason))
      (hbudget : t + d - started + b.interval < b.total)
      (hquiet : ∀ c, raised = some c → t + d + b.interval < c)
      (hrest : Schedule b raised script started (k + 1) (t + d + b.interval) starts r finish) :
      Schedule b raised script started k t (t :: starts) r finish

/-- What retrying the sequence from `started` on comes to. -/
inductive Budget.Reference (b : Budget) (raised : Option Instant) (script : ℕ → TimedAttempt ε α)
    (started : Instant) : List Instant → Except (RetryError ε) α → Instant → Prop
  | cancelled {c} (hraised : raised = some c) (hle : c ≤ started) :
      Reference b raised script started [] (.error .cancelled) started
  | attempts {starts r finish} (hquiet : ∀ c, raised = some c → started < c)
      (h : b.Schedule raised script started 0 started starts r finish) :
      Reference b raised script started starts r finish

namespace Budget.Schedule

variable {b : Budget} {raised : Option Instant} {script : ℕ → TimedAttempt ε α} {started : Instant}
  {k : ℕ} {t : Instant} {starts : List Instant} {r : Except (RetryError ε) α} {finish : Instant}

theorem head_eq (h : b.Schedule raised script started k t starts r finish) :
    ∃ later, starts = t :: later := by
  cases h <;> exact ⟨_, rfl⟩

theorem tail_lt (h : b.Schedule raised script started k t starts r finish) (ht : started ≤ t) :
    ∀ s ∈ starts.tail, s < started + b.total := by
  induction h with
  | success | fatal | exhausted | cancelled => simp
  | @again k t d _ later _ _ _ hbudget _ hrest ih =>
    obtain ⟨rest, rfl⟩ := hrest.head_eq
    intro s hs
    rcases List.mem_cons.1 hs with rfl | hs
    · grind
    · exact ih (by grind) s hs

theorem lt_raised (h : b.Schedule raised script started k t starts r finish)
    (ht : ∀ c, raised = some c → t < c) : ∀ s ∈ starts, ∀ c, raised = some c → s < c := by
  induction h with
  | success | fatal | exhausted | cancelled => simpa using ht
  | again _ _ hquiet _ ih =>
    intro s hs
    rcases List.mem_cons.1 hs with rfl | hs
    · exact ht
    · exact ih hquiet s hs

/-- A reason to retry is told only once the budget is used up, and it is the last attempt's. -/
theorem of_exhausted (h : b.Schedule raised script started k t starts r finish) (ht : started ≤ t)
    {elapsed : Duration} {last : String} (hr : r = .error (.exhausted elapsed last)) :
    b.total ≤ elapsed + b.interval ∧ finish = started + elapsed ∧
      ∃ d, (script (k + (starts.length - 1))).under b.attemptLimit = some (d, .retry last) := by
  induction h with
  | success | fatal | cancelled => cases hr
  | @exhausted k t d reason h hbudget =>
    cases hr
    exact ⟨hbudget, by grind, d, h⟩
  | @again k t d _ later _ _ _ hbudget _ hrest ih =>
    obtain ⟨rest, rfl⟩ := hrest.head_eq
    have := ih (by grind) hr
    simpa [Nat.add_assoc, Nat.add_comm 1] using this

end Budget.Schedule

namespace TimedAttempt

variable {b : Budget} {script : ℕ → TimedAttempt ε α} {S : Setting (List Instant)}
  {w w' : World (List Instant)}

def begun (w : World (List Instant)) : World (List Instant) := { w with state := w.now :: w.state }

def after (w : World (List Instant)) (d : Duration) : World (List Instant) :=
  { w with now := w.now + d, state := w.now :: w.state }

theorem advance_begun (w : World (List Instant)) (d : Duration) :
    (begun w).advance (w.now + d) = after w d := by
  simp [begun, after, World.advance]

theorem ends_perform_iff {r : Except Stop (Attempt ε α)} :
    (perform script).Ends S w r w' ↔
      (Work.waitUntil ((script w.state.length).duration.map (w.now + ·)) >>= fun _ =>
        pure (script w.state.length).outcome).Ends S (begun w) r w' :=
  Iff.rfl

theorem ends_perform {d : Duration} (hd : (script w.state.length).duration = some d)
    (hS : S.Allows (w.now + d)) :
    (perform script).Ends S w (.ok (script w.state.length).outcome)
      (after w d) := by
  rw [ends_perform_iff, hd, ← advance_begun]
  exact (Work.ends_waitUntil hS).bind (Work.ends_pure_iff.2 ⟨rfl, rfl⟩)

theorem ends_perform_overdue
    (h : ∀ d, (script w.state.length).duration = some d → ¬ S.Allows (w.now + d)) :
    (perform script).Ends S w (.error .overdue) ((begun w).expired S) := by
  refine ends_perform_iff.2 (Work.Ends.bind_error _ (Work.ends_waitUntil_iff.2 (.inr ⟨?_, rfl, rfl⟩)))
  intro t ht
  obtain ⟨d, hd, rfl⟩ := Option.map_eq_some_iff.1 ht
  exact h d hd

/-- An attempt under the budget's limit takes its time and comes to its outcome. -/
theorem ends_attempt (hS : S.limit = none) {d : Duration} {o : Attempt ε α}
    (h : (script w.state.length).under b.attemptLimit = some (d, o)) :
    (b.attempt (perform script)).Ends S w (.ok o) (after w d) := by
  unfold under at h
  rcases hl : b.attemptLimit with _ | l
  · rw [ends_attempt_iff_of_no_limit hl]
    rcases hd : (script w.state.length).duration with _ | d₀ <;> simp only [hl, hd] at h
    · cases h
    · obtain ⟨rfl, rfl⟩ := Prod.mk.inj (Option.some.inj h)
      exact ends_perform hd (S.allows_of_limit_none hS _)
  · have hlimit : (Work.limited S w l).limit = some (w.now + l) := rfl
    rw [ends_attempt_iff_of_limit hl]
    by_cases hin : ∃ d₀, (script w.state.length).duration = some d₀ ∧ d₀ ≤ l
    · obtain ⟨d₀, hd, hle⟩ := hin
      simp only [hl, hd, if_pos hle] at h
      obtain ⟨rfl, rfl⟩ := Prod.mk.inj (Option.some.inj h)
      exact .inl ⟨_, ends_perform hd ((Setting.allows_iff hlimit _).2 (by grind)), rfl⟩
    · have hlate : ∀ d₀, (script w.state.length).duration = some d₀ →
          ¬ (Work.limited S w l).Allows (w.now + d₀) := by
        intro d₀ hd hallows
        have := (Setting.allows_iff hlimit _).1 hallows
        exact hin ⟨d₀, hd, by grind⟩
      have hunder : (d, o) = (l, .retry (timeoutReason l)) := by
        rcases hd : (script w.state.length).duration with _ | d₀ <;> simp only [hl, hd] at h
        · exact (Option.some.inj h).symm
        · have hnot : ¬ d₀ ≤ l := fun hle => hin ⟨d₀, hd, hle⟩
          rw [if_neg hnot] at h
          exact (Option.some.inj h).symm
      obtain ⟨rfl, rfl⟩ := Prod.mk.inj hunder
      refine .inr (.inl ⟨?_, rfl⟩)
      have := ends_perform_overdue hlate
      rwa [World.expired_of_limit _ hlimit, advance_begun] at this

/-- An attempt that never ends, and that no limit cuts off, leaves the retry waiting. -/
theorem ends_attempt_overdue (hS : S.limit = none)
    (h : (script w.state.length).under b.attemptLimit = none) :
    (b.attempt (perform script)).Ends S w (.error .overdue) (begun w) := by
  unfold under at h
  rcases hl : b.attemptLimit with _ | l <;> rcases hd : (script w.state.length).duration with _ | d₀
  all_goals simp only [hl, hd] at h
  · rw [ends_attempt_iff_of_no_limit hl]
    have hnever : ∀ d, (script w.state.length).duration = some d → ¬ S.Allows (w.now + d) := by
      simp [hd]
    have := ends_perform_overdue hnever
    rwa [World.expired_of_limit_none _ hS] at this
  · cases h
  · cases h
  · split at h <;> cases h

/-- What an attempt of the sequence comes to, and when, is what the sequence says. -/
theorem under_of_ends (hS : S.limit = none) {o : Attempt ε α}
    (h : (b.attempt (perform script)).Ends S w (.ok o) w') :
    ∃ d, (script w.state.length).under b.attemptLimit = some (d, o) ∧ w' = after w d := by
  rcases hu : (script w.state.length).under b.attemptLimit with _ | ⟨d, o'⟩
  · cases (h.unique (ends_attempt_overdue hS hu)).1
  · obtain ⟨ho, rfl⟩ := h.unique (ends_attempt hS hu)
    cases ho
    exact ⟨d, rfl, rfl⟩

variable {started : Instant} {r : Except (RetryError ε) α}

theorem schedule_of_rounds (hS : S.limit = none) {w₁ : World (List Instant)}
    (hchain : Relation.ReflTransGen (b.Again (perform script) S started) w w₁)
    (hlast : b.Round (perform script) S started w₁ (.ok (some r)) w')
    (hj : w.journal = #[]) (hquiet : ¬ S.RaisedBy #[] w.now) :
    ∃ starts finish,
      b.Schedule (S.signal.raisedAt? #[]) script started w.state.length w.now starts r finish ∧
        w' = { w with now := finish, state := starts.reverse ++ w.state } := by
  induction hchain using Relation.ReflTransGen.head_induction_on with
  | refl =>
    cases hlast with
    | cancelled h => exact absurd (hj ▸ h) hquiet
    | success _ hwork =>
      obtain ⟨d, hd, rfl⟩ := under_of_ends hS hwork
      exact ⟨_, _, .success hd, rfl⟩
    | fatal _ hwork =>
      obtain ⟨d, hd, rfl⟩ := under_of_ends hS hwork
      exact ⟨_, _, .fatal hd, rfl⟩
    | exhausted _ hwork hbudget =>
      obtain ⟨d, hd, rfl⟩ := under_of_ends hS hwork
      exact ⟨_, _, .exhausted hd hbudget, rfl⟩
    | interrupted _ hwork hbudget hraised hle =>
      obtain ⟨d, hd, rfl⟩ := under_of_ends hS hwork
      change S.signal.raisedAt? w₁.journal = _ at hraised
      exact ⟨_, _, .cancelled hd hbudget (hj ▸ hraised) hle, rfl⟩
  | @head w w₂ hround _ ih =>
    cases hround with
    | again _ hwork hbudget hq =>
      obtain ⟨d, hd, rfl⟩ := under_of_ends hS hwork
      change ¬ S.RaisedBy w.journal _ at hq
      rw [hj] at hq
      have hnow : ((after w d).advance ((after w d).now + b.interval)).now =
          w.now + d + b.interval := by simp [after]
      obtain ⟨starts, finish, hrest, rfl⟩ := ih hj (by rwa [hnow])
      rw [hnow] at hrest
      refine ⟨w.now :: starts, finish, .again hd hbudget ?_ hrest, ?_⟩
      · intro c hc
        exact Nat.lt_of_not_le fun hle => hq ⟨c, hc, hle⟩
      · simp [after, World.advance]

theorem rounds_of_schedule (hS : S.limit = none) {k : ℕ} {t finish : Instant} {starts : List Instant}
    (h : b.Schedule (S.signal.raisedAt? #[]) script started k t starts r finish) :
    ∀ w : World (List Instant), w.state.length = k → w.now = t → w.journal = #[] →
      ¬ S.RaisedBy #[] t →
      ∃ w₁, Relation.ReflTransGen (b.Again (perform script) S started) w w₁ ∧
        b.Round (perform script) S started w₁ (.ok (some r))
          { w with now := finish, state := starts.reverse ++ w.state } := by
  induction h with
  | success h =>
    rintro w rfl rfl hj hquiet
    exact ⟨w, .refl, .success (hj ▸ hquiet) (ends_attempt hS h)⟩
  | fatal h =>
    rintro w rfl rfl hj hquiet
    exact ⟨w, .refl, .fatal (hj ▸ hquiet) (ends_attempt hS h)⟩
  | exhausted h hbudget =>
    rintro w rfl rfl hj hquiet
    exact ⟨w, .refl, .exhausted (hj ▸ hquiet) (ends_attempt hS h) hbudget⟩
  | cancelled h hbudget hraised hle =>
    rintro w rfl rfl hj hquiet
    refine ⟨w, .refl, .interrupted (hj ▸ hquiet) (ends_attempt hS h) hbudget ?_ hle⟩
    change S.signal.raisedAt? w.journal = _
    rw [hj, hraised]
  | @again k t d reason starts r finish h hbudget hq hrest ih =>
    rintro w rfl rfl hj hquiet
    have hstep : b.Again (perform script) S started w
        ((after w d).advance ((after w d).now + b.interval)) := by
      refine .again (hj ▸ hquiet) (ends_attempt hS h) hbudget ?_
      rintro ⟨c, hc, hle⟩
      change S.signal.raisedAt? w.journal = _ at hc
      exact Nat.not_le.2 (hq c (hj ▸ hc)) hle
    obtain ⟨w₁, hchain, hlast⟩ := ih ((after w d).advance ((after w d).now + b.interval)) rfl
      (by simp [after]) hj (by rintro ⟨c, hc, hle⟩; exact Nat.not_le.2 (hq c hc) hle)
    refine ⟨w₁, .head hstep hchain, ?_⟩
    simpa [after, World.advance] using hlast

theorem ends_retry_iff_reference (hS : S.limit = none) :
    (retry b (perform script)).Ends S { now := started, state := [] } (.ok r) w' ↔
      ∃ starts finish, b.Reference (S.signal.raisedAt? #[]) script started starts r finish ∧
        w' = { now := finish, state := starts.reverse } := by
  by_cases hraised : S.RaisedBy #[] started
  · obtain ⟨c, hc, hle⟩ := hraised
    have hends : (retry b (perform script)).Ends S { now := started, state := [] }
        (.ok (.error .cancelled)) { now := started, state := [] } :=
      ends_retry_of_raised hS ⟨c, hc, hle⟩
    constructor
    · intro h
      obtain ⟨hr, rfl⟩ := h.unique hends
      cases hr
      exact ⟨[], started, .cancelled hc hle, rfl⟩
    · rintro ⟨starts, finish, h, rfl⟩
      cases h with
      | cancelled => exact hends
      | attempts hquiet => exact absurd (hquiet c hc) (Nat.not_lt.2 hle)
  · rw [ends_retry_iff hS]
    constructor
    · rintro ⟨w₁, hchain, hlast⟩
      obtain ⟨starts, finish, h, rfl⟩ := schedule_of_rounds hS hchain hlast rfl hraised
      refine ⟨starts, finish, .attempts (fun c hc => ?_) h, by simp⟩
      exact Nat.lt_of_not_le fun hle => hraised ⟨c, hc, hle⟩
    · rintro ⟨starts, finish, h, rfl⟩
      cases h with
      | cancelled hc hle => exact absurd ⟨_, hc, hle⟩ hraised
      | attempts _ h =>
        simpa [Except.map] using
          rounds_of_schedule hS h { now := started, state := [] } rfl rfl rfl hraised

end TimedAttempt

/-- A retry of attempts that behave like a sequence is its reference, whatever the signal. Every attempt
after the first starts before the total is over, none once the signal is raised, and a reason to retry is
told only when there is no time for another attempt. -/
theorem retry_keeps_schedule (b : Budget) (script : ℕ → TimedAttempt ε α)
    (env : Environment (List Instant)) (cluster : Cluster) (nodes : List Node) (signal : Signal)
    (started : Instant) :
    (∀ r w',
      (retry b (TimedAttempt.perform script)).Ends { environment := env, cluster, nodes, signal }
          { now := started, state := [] } (.ok r) w' ↔
        ∃ starts finish, b.Reference (signal.raisedAt? #[]) script started starts r finish ∧
          w' = { now := finish, state := starts.reverse }) ∧
    ∀ starts r finish, b.Reference (signal.raisedAt? #[]) script started starts r finish →
      (∀ t ∈ starts.tail, t < started + b.total) ∧
      (∀ t ∈ starts, ∀ c, signal.raisedAt? #[] = some c → t < c) ∧
      ∀ elapsed last, r = .error (.exhausted elapsed last) →
        b.total ≤ elapsed + b.interval ∧ finish = started + elapsed ∧
          ∃ d, (script (starts.length - 1)).under b.attemptLimit = some (d, .retry last) := by
  constructor
  · intro r w'
    exact TimedAttempt.ends_retry_iff_reference rfl
  · intro starts r finish h
    cases h with
    | cancelled => simp
    | attempts hquiet h =>
      refine ⟨h.tail_lt le_rfl, h.lt_raised hquiet, fun elapsed last hr => ?_⟩
      simpa using h.of_exhausted le_rfl hr

end Rollout
