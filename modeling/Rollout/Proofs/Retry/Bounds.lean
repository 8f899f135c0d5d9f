import Mathlib.Algebra.Order.Floor.Div
import Rollout.Proofs.Retry.Schedule
import Rollout.Proofs.Run.Punctuality

/-!
# How long a retry can take

The pause alone bounds a retry. Every attempt but the first begins before the total is over, and a pause
or more after the one before it. So there are no more attempts than pauses fit into the total, rounded
up; and when each attempt has a limit, the last one is over by the total and the limit.
-/

namespace Rollout

variable {σ ε α : Type} {b : Budget} {work : Work σ (Attempt ε α)} {S : Setting σ} {started : Instant}
  {w w' : World σ} {tally : World σ → ℕ}

/-- The most attempts a retry makes under the budget. -/
def Budget.maxAttempts (b : Budget) : ℕ := max 1 (b.total ⌈/⌉ b.interval)

/-- What `tally` counts in a world, waiting leaves alone and each attempt adds one to. -/
structure Work.Tallied (tally : World σ → ℕ) (work : Work σ (Attempt ε α)) : Prop where
  advance (w : World σ) (t : Instant) : tally (w.advance t) = tally w
  attempt {S : Setting σ} {w w' : World σ} {r : Except Stop (Attempt ε α)} :
    work.Ends S w r w' → tally w' = tally w + 1

theorem Work.Tallied.limited (h : work.Tallied tally) {r : Except Stop (Attempt ε α)}
    (hends : (b.attempt work).Ends S w r w') : tally w' = tally w + 1 := by
  cases hl : b.attemptLimit with
  | none => exact h.attempt ((ends_attempt_iff_of_no_limit hl).1 hends)
  | some limit =>
    rcases (ends_attempt_iff_of_limit hl).1 hends with ⟨o, hwork, -⟩ | ⟨hwork, -⟩ | ⟨e, hwork, -⟩
    · exact h.attempt hwork
    · exact h.attempt hwork
    · exact h.attempt hwork

theorem Budget.Round.tally_le (h : work.Tallied tally)
    {r : Except Stop (Option (Except (RetryError ε) α))} (hround : b.Round work S started w r w') :
    tally w' ≤ tally w + 1 := by
  cases hround with
  | cancelled => exact Nat.le_succ _
  | stopped _ hwork => exact (h.limited hwork).le
  | success _ hwork => exact (h.limited hwork).le
  | fatal _ hwork => exact (h.limited hwork).le
  | exhausted _ hwork => exact (h.limited hwork).le
  | interrupted _ hwork => exact (h.advance _ _).le.trans (h.limited hwork).le
  | again _ hwork => exact (h.advance _ _).le.trans (h.limited hwork).le

theorem Budget.Again.now_lt {P : Call → Prop} (hruns : ∀ S, work.Runs S P)
    (h : b.Again work S started w w') :
    w.now + b.interval ≤ w'.now ∧ w'.now < started + b.total := by
  cases h with
  | @again reason w₁ _ hwork hbudget _ =>
    have hle : w.now ≤ w₁.now := (hwork.extends (.attempt hruns)).now_le
    simp only [World.advance_now]
    grind

/-- After some rounds as many pauses are over, and the total is not. -/
theorem Budget.rounds_of_chain {P : Call → Prop} (h : work.Tallied tally) (hruns : ∀ S, work.Runs S P)
    (hchain : Relation.ReflTransGen (b.Again work S w.now) w w') :
    ∃ n, tally w' = tally w + n ∧ w.now + n * b.interval ≤ w'.now ∧
      (n = 0 ∧ w' = w ∨ w'.now < w.now + b.total) := by
  induction hchain with
  | refl => exact ⟨0, rfl, by simp, .inl ⟨rfl, rfl⟩⟩
  | @tail v v' _ hagain ih =>
    obtain ⟨n, htally, hpauses, -⟩ := ih
    obtain ⟨hpause, hlt⟩ := hagain.now_lt hruns
    refine ⟨n + 1, ?_, ?_, .inr hlt⟩
    · cases hagain with
      | again _ hwork => rw [h.advance, h.limited hwork, htally, Nat.add_assoc]
    · rw [Nat.add_mul, Nat.one_mul, ← Nat.add_assoc]
      exact (Nat.add_le_add_right hpauses _).trans hpause

/-- A retry makes no more attempts than pauses fit into the total. -/
theorem tally_le_of_ends_retry {P : Call → Prop} (hS : S.limit = none) (hpause : 0 < b.interval)
    (h : work.Tallied tally) (hruns : ∀ S, work.Runs S P) {r : Except Stop (Except (RetryError ε) α)}
    (hends : (retry b work).Ends S w r w') : tally w' ≤ tally w + b.maxAttempts := by
  obtain ⟨w₁, hchain, hlast⟩ := (ends_retry_iff hS).1 hends
  obtain ⟨n, htally, hpauses, hbegun⟩ := Budget.rounds_of_chain h hruns hchain
  have hn : n + 1 ≤ b.maxAttempts := by
    rcases hbegun with ⟨rfl, -⟩ | hlt
    · exact le_max_left _ _
    · have hfit : n * b.interval < b.total := by grind
      refine le_max_of_le_right (Nat.lt_of_not_le fun hle => ?_)
      rw [ceilDiv_le_iff_le_mul hpause, Nat.mul_comm] at hle
      exact Nat.not_lt.2 hle hfit
  have hlast := hlast.tally_le h
  grind

theorem le_of_ends_attempt {limit : Duration} (hl : b.attemptLimit = some limit)
    (h : work.Punctual) {r : Except Stop (Attempt ε α)} (hends : (b.attempt work).Ends S w r w') :
    w'.now ≤ w.now + limit ∧ r ≠ .error .overdue := by
  have hwork {r' : Except Stop (Attempt ε α)} (hr' : work.Ends (Work.limited S w limit) w r' w') :
      w'.now ≤ w.now + limit := by
    have hlimit : (Work.limited S w limit).limit = some (w.now + limit) := rfl
    refine (Setting.allows_iff hlimit _).1 (h _ _ _ _ hr' ?_)
    exact (Setting.allows_iff hlimit _).2 (Nat.le_add_right _ _)
  rcases (ends_attempt_iff_of_limit hl).1 hends with ⟨o, ho, rfl⟩ | ⟨ho, rfl⟩ | ⟨e, he, rfl⟩
  · exact ⟨hwork ho, nofun⟩
  · exact ⟨hwork ho, nofun⟩
  · exact ⟨hwork he, nofun⟩

/-- With a limit for each attempt, a round begun at `w` is over by the limit or the total. -/
theorem Budget.Round.now_le {limit : Duration} (hl : b.attemptLimit = some limit)
    (h : work.Punctual) {r : Except Stop (Option (Except (RetryError ε) α))}
    (hround : b.Round work S started w r w') :
    w'.now ≤ max (w.now + limit) (started + b.total) ∧ r ≠ .error .overdue := by
  cases hround with
  | cancelled => exact ⟨le_max_of_le_left (Nat.le_add_right _ _), nofun⟩
  | stopped _ hwork =>
    obtain ⟨hle, hne⟩ := le_of_ends_attempt hl h hwork
    refine ⟨le_max_of_le_left hle, ?_⟩
    rintro ⟨⟩
    exact hne rfl
  | success _ hwork => exact ⟨le_max_of_le_left (le_of_ends_attempt hl h hwork).1, nofun⟩
  | fatal _ hwork => exact ⟨le_max_of_le_left (le_of_ends_attempt hl h hwork).1, nofun⟩
  | exhausted _ hwork => exact ⟨le_max_of_le_left (le_of_ends_attempt hl h hwork).1, nofun⟩
  | interrupted _ hwork hbudget _ hraised =>
    have hle := (le_of_ends_attempt hl h hwork).1
    refine ⟨?_, nofun⟩
    simp only [World.advance_now]
    grind
  | again _ hwork hbudget =>
    have hle := (le_of_ends_attempt hl h hwork).1
    refine ⟨?_, nofun⟩
    simp only [World.advance_now]
    grind

theorem le_of_ends_retry {P : Call → Prop} {limit : Duration} (hS : S.limit = none)
    (hl : b.attemptLimit = some limit) (h : work.Punctual) (hruns : ∀ S, work.Runs S P)
    {r : Except Stop (Except (RetryError ε) α)} (hends : (retry b work).Ends S w r w') :
    w'.now ≤ w.now + b.total + limit ∧ r ≠ .error .overdue := by
  obtain ⟨w₁, hchain, hlast⟩ := (ends_retry_iff hS).1 hends
  have hbegun : w₁.now ≤ w.now + b.total := by
    rcases Relation.ReflTransGen.cases_tail hchain with heq | ⟨v, -, hagain⟩
    · exact heq ▸ Nat.le_add_right _ _
    · exact (Budget.Again.now_lt hruns hagain).2.le
  obtain ⟨hnow, hne⟩ := hlast.now_le hl h
  refine ⟨?_, ?_⟩
  · grind
  · rintro rfl
    exact hne rfl

end Rollout
