import Rollout.Proofs.Retry.Rounds
import Rollout.Proofs.Watchdog.Window

/-!
# An attempt of the watchdog

The calls of an attempt and the window after them have one deadline. `Probe` lists what the calls can
come to by then, `Watched` what the whole attempt can; the two are read off what the environment answers,
so each attempt comes to exactly one of these.
-/

namespace Rollout

variable {σ : Type}

/-- What the calls of an attempt come to. -/
inductive Baseline where
  | refused (reason : String)
  /-- The deadline passes before the last call is answered. -/
  | late
  /-- All is well; the subscription has been open since `subscribed`. -/
  | healthy (subscribed : Instant) (stream : EventStream)

/-- What the calls made from `w` on come to by the deadline, and the world then. -/
inductive Probe (env : Environment σ) (node : Node) (deadline : Instant) (w : World σ) :
    Baseline → World σ → Prop
  | unconnected {e w₁} (hconnect : w.connection? env node = some (.error e, w₁))
      (htime : w₁.now ≤ deadline) : Probe env node deadline w (.refused e.message) w₁
  | unsubscribed {client w₁ e w₂} (hconnect : w.connection? env node = some (.ok client, w₁))
      (hwatch : w₁.answer? env (.request client .watch) = some (.error e, w₂))
      (htime : w₂.now ≤ deadline) :
      Probe env node deadline w (.refused s!"subscribe to events: {e.message}") w₂
  | unread {client w₁ stream w₂ e w₃} (hconnect : w.connection? env node = some (.ok client, w₁))
      (hwatch : w₁.answer? env (.request client .watch) = some (.ok stream, w₂))
      (hstatus : w₂.answer? env (.request client .status) = some (.error e, w₃))
      (htime : w₃.now ≤ deadline) :
      Probe env node deadline w (.refused s!"read machine status: {e.message}") w₃
  | unhealthy {client w₁ stream w₂ status w₃ reason}
      (hconnect : w.connection? env node = some (.ok client, w₁))
      (hwatch : w₁.answer? env (.request client .watch) = some (.ok stream, w₂))
      (hstatus : w₂.answer? env (.request client .status) = some (.ok status, w₃))
      (htime : w₃.now ≤ deadline) (hreason : status.unhealthy? = some reason) :
      Probe env node deadline w (.refused reason) w₃
  | healthy {client w₁ stream w₂ status w₃}
      (hconnect : w.connection? env node = some (.ok client, w₁))
      (hwatch : w₁.answer? env (.request client .watch) = some (.ok stream, w₂))
      (hstatus : w₂.answer? env (.request client .status) = some (.ok status, w₃))
      (htime : w₃.now ≤ deadline) (hhealthy : status.unhealthy? = none) :
      Probe env node deadline w (.healthy w₂.now stream) w₃
  | lateConnection
      (hconnect : ∀ a w₁, w.connection? env node = some (a, w₁) → deadline < w₁.now) :
      Probe env node deadline w .late ((w.asked env (.connect node)).advance deadline)
  | lateSubscription {client w₁} (hconnect : w.connection? env node = some (.ok client, w₁))
      (htime : w₁.now ≤ deadline)
      (hwatch : ∀ a w₂, w₁.answer? env (.request client .watch) = some (a, w₂) →
        deadline < w₂.now) :
      Probe env node deadline w .late ((w₁.asked env (.request client .watch)).advance deadline)
  | lateStatus {client w₁ stream w₂} (hconnect : w.connection? env node = some (.ok client, w₁))
      (hwatch : w₁.answer? env (.request client .watch) = some (.ok stream, w₂))
      (htime : w₂.now ≤ deadline)
      (hstatus : ∀ a w₃, w₂.answer? env (.request client .status) = some (a, w₃) →
        deadline < w₃.now) :
      Probe env node deadline w .late ((w₂.asked env (.request client .status)).advance deadline)

variable {node : Node} {deadline : Instant} {w w' : World σ} {window : Duration}

theorem exists_probe (env : Environment σ) (node : Node) (deadline : Instant) (w : World σ) :
    ∃ baseline w', Probe env node deadline w baseline w' := by
  by_cases hc : ∃ a w₁, w.connection? env node = some (a, w₁) ∧ w₁.now ≤ deadline
  · obtain ⟨e | client, w₁, hconnect, h₁⟩ := hc
    · exact ⟨_, _, .unconnected hconnect h₁⟩
    by_cases hw : ∃ a w₂, w₁.answer? env (.request client .watch) = some (a, w₂) ∧ w₂.now ≤ deadline
    · obtain ⟨e | stream, w₂, hwatch, h₂⟩ := hw
      · exact ⟨_, _, .unsubscribed hconnect hwatch h₂⟩
      by_cases hs : ∃ a w₃, w₂.answer? env (.request client .status) = some (a, w₃) ∧ w₃.now ≤ deadline
      · obtain ⟨e | status, w₃, hstatus, h₃⟩ := hs
        · exact ⟨_, _, .unread hconnect hwatch hstatus h₃⟩
        cases hhealth : status.unhealthy? with
        | none => exact ⟨_, _, .healthy hconnect hwatch hstatus h₃ hhealth⟩
        | some reason => exact ⟨_, _, .unhealthy hconnect hwatch hstatus h₃ hhealth⟩
      · exact ⟨_, _, .lateStatus hconnect hwatch h₂
          fun a w₃ h => Nat.lt_of_not_le fun hle => hs ⟨a, w₃, h, hle⟩⟩
    · exact ⟨_, _, .lateSubscription hconnect h₁
        fun a w₂ h => Nat.lt_of_not_le fun hle => hw ⟨a, w₂, h, hle⟩⟩
  · exact ⟨_, _, .lateConnection fun a w₁ h => Nat.lt_of_not_le fun hle => hc ⟨a, w₁, h, hle⟩⟩

namespace Work

variable {S : Setting σ}

theorem ends_stableAttempt_of_refused {reason : String} (hS : S.limit = some deadline)
    (h : Probe S.environment node deadline w (.refused reason) w') :
    (stableAttempt node window).Ends S w (.ok (.retry reason)) w' := by
  have hallows {t : Instant} (ht : t ≤ deadline) : S.Allows t := (Setting.allows_iff hS t).2 ht
  cases h with
  | unconnected hconnect htime =>
    exact (ends_connect hconnect (hallows htime)).bind (ends_pure_iff.2 ⟨rfl, rfl⟩)
  | unsubscribed hconnect hwatch htime =>
    have h₁ := World.now_le_answer hwatch
    refine (ends_connect hconnect (hallows (h₁.trans htime))).bind ?_
    exact (ends_call hwatch (hallows htime)).bind (ends_pure_iff.2 ⟨rfl, rfl⟩)
  | unread hconnect hwatch hstatus htime =>
    have h₂ := World.now_le_answer hstatus
    have h₁ := (World.now_le_answer hwatch).trans h₂
    refine (ends_connect hconnect (hallows (h₁.trans htime))).bind ?_
    refine (ends_call hwatch (hallows (h₂.trans htime))).bind ?_
    exact ends_clock.bind ((ends_call hstatus (hallows htime)).bind (ends_pure_iff.2 ⟨rfl, rfl⟩))
  | unhealthy hconnect hwatch hstatus htime hreason =>
    have h₂ := World.now_le_answer hstatus
    have h₁ := (World.now_le_answer hwatch).trans h₂
    refine (ends_connect hconnect (hallows (h₁.trans htime))).bind ?_
    refine (ends_call hwatch (hallows (h₂.trans htime))).bind ?_
    refine ends_clock.bind ((ends_call hstatus (hallows htime)).bind ?_)
    dsimp only
    rw [hreason]
    exact ends_pure_iff.2 ⟨rfl, rfl⟩

theorem ends_stableAttempt_of_late (hS : S.limit = some deadline)
    (h : Probe S.environment node deadline w .late w') :
    (stableAttempt node window).Ends S w (.error .overdue) w' := by
  have hallows {t : Instant} (ht : t ≤ deadline) : S.Allows t := (Setting.allows_iff hS t).2 ht
  have hnot {t : Instant} (ht : deadline < t) : ¬ S.Allows t :=
    fun h => Nat.not_lt.2 ((Setting.allows_iff hS t).1 h) ht
  cases h with
  | lateConnection hconnect =>
    rw [← World.expired_of_limit _ hS]
    exact (ends_connect_overdue fun a w₁ h => hnot (hconnect a w₁ h)).bind_error _
  | lateSubscription hconnect htime hwatch =>
    rw [← World.expired_of_limit _ hS]
    refine (ends_connect hconnect (hallows htime)).bind ?_
    exact (ends_call_overdue fun a w₂ h => hnot (hwatch a w₂ h)).bind_error _
  | lateStatus hconnect hwatch htime hstatus =>
    have h₁ := World.now_le_answer hwatch
    rw [← World.expired_of_limit _ hS]
    refine (ends_connect hconnect (hallows (h₁.trans htime))).bind ?_
    refine (ends_call hwatch (hallows htime)).bind ?_
    exact ends_clock.bind ((ends_call_overdue fun a w₃ h => hnot (hstatus a w₃ h)).bind_error _)

theorem ends_stableAttempt_of_healthy {subscribed : Instant} {stream : EventStream} {w₁ : World σ}
    {r : Except Stop (Attempt Error Unit)} (hS : S.limit = some deadline)
    (h : Probe S.environment node deadline w (.healthy subscribed stream) w₁)
    (hrest : (watchFor window subscribed stream).Ends S w₁ r w') :
    (stableAttempt node window).Ends S w r w' := by
  have hallows {t : Instant} (ht : t ≤ deadline) : S.Allows t := (Setting.allows_iff hS t).2 ht
  cases h with
  | healthy hconnect hwatch hstatus htime hhealthy =>
    have h₂ := World.now_le_answer hstatus
    have h₁ := (World.now_le_answer hwatch).trans h₂
    refine (ends_connect hconnect (hallows (h₁.trans htime))).bind ?_
    refine (ends_call hwatch (hallows (h₂.trans htime))).bind ?_
    refine ends_clock.bind ((ends_call hstatus (hallows htime)).bind ?_)
    dsimp only
    rwa [hhealthy]

end Work

abbrev World.WindowEnds (S : Setting σ) (window : Duration) (w : World σ) :
    List (Instant × Option (Except ApiError NodeEvent)) → Instant × Sight → Prop :=
  Rollout.WindowEnds (S.environment.favours w.state w.now) w.now (w.now + window)
    (S.signal.raisedAt? w.journal)

def Sight.outcome : Sight → Attempt Error Unit
  | stable => .success ()
  | cancelled => .fatal .cancelled
  | lost reason => .retry reason

namespace Work

variable {S : Setting σ}

/-- A window that ends by the deadline is seen to its end, another is cut off. -/
theorem ends_watchFor {subscribed time : Instant} {stream : EventStream} {sight : Sight}
    (h : w.WindowEnds S window (stream.timeline subscribed) (time, sight)) :
    (S.Allows time →
      (watchFor window subscribed stream).Ends S w (.ok sight.outcome) (w.advance time)) ∧
    (¬ S.Allows time →
      (watchFor window subscribed stream).Ends S w (.error .overdue) (w.expired S)) := by
  have hpair := h.eq
  constructor
  · intro hallows
    unfold watchFor Ends
    rw [result?_clock_bind, result?_raisedAt?_bind, result?_favours_bind, hpair]
    refine (ends_waitUntil hallows).bind ?_
    cases sight <;> exact ends_pure_iff.2 ⟨rfl, rfl⟩
  · intro hnot
    unfold watchFor Ends
    rw [result?_clock_bind, result?_raisedAt?_bind, result?_favours_bind, hpair]
    refine Ends.bind_error _ (ends_waitUntil_iff.2 (.inr ⟨?_, rfl, rfl⟩))
    rintro t ⟨⟩
    exact hnot

end Work

/-- What an attempt begun in `w` comes to by the deadline, and the world then. -/
inductive Watched (S : Setting σ) (node : Node) (window : Duration) (deadline : Instant)
    (w : World σ) : Except Stop (Attempt Error Unit) → World σ → Prop
  | refused {reason w₁} (h : Probe S.environment node deadline w (.refused reason) w₁) :
      Watched S node window deadline w (.ok (.retry reason)) w₁
  | late {w₁} (h : Probe S.environment node deadline w .late w₁) :
      Watched S node window deadline w (.error .overdue) w₁
  | seen {subscribed stream w₁ time sight}
      (h : Probe S.environment node deadline w (.healthy subscribed stream) w₁)
      (hends : w₁.WindowEnds S window (stream.timeline subscribed) (time, sight))
      (htime : time ≤ deadline) :
      Watched S node window deadline w (.ok sight.outcome) (w₁.advance time)
  | cutOff {subscribed stream w₁ time sight}
      (h : Probe S.environment node deadline w (.healthy subscribed stream) w₁)
      (hends : w₁.WindowEnds S window (stream.timeline subscribed) (time, sight))
      (htime : deadline < time) :
      Watched S node window deadline w (.error .overdue) (w₁.advance deadline)

theorem exists_watched (S : Setting σ) (node : Node) (window : Duration) (deadline : Instant)
    (w : World σ) : ∃ r w', Watched S node window deadline w r w' := by
  obtain ⟨baseline, w₁, h⟩ := exists_probe S.environment node deadline w
  cases baseline with
  | refused reason => exact ⟨_, _, .refused h⟩
  | late => exact ⟨_, _, .late h⟩
  | healthy subscribed stream =>
    obtain ⟨⟨time, sight⟩, hends⟩ : ∃ out, w₁.WindowEnds S window (stream.timeline subscribed) out :=
      exists_windowEnds _ _ _ _ _
    rcases Nat.lt_or_ge deadline time with hlt | hle
    · exact ⟨_, _, .cutOff h hends hlt⟩
    · exact ⟨_, _, .seen h hends hle⟩

theorem Watched.ends {S : Setting σ} {r : Except Stop (Attempt Error Unit)}
    (hS : S.limit = some deadline) (h : Watched S node window deadline w r w') :
    (Work.stableAttempt node window).Ends S w r w' := by
  cases h with
  | refused h => exact Work.ends_stableAttempt_of_refused hS h
  | late h => exact Work.ends_stableAttempt_of_late hS h
  | seen h hends htime =>
    exact Work.ends_stableAttempt_of_healthy hS h
      ((Work.ends_watchFor hends).1 ((Setting.allows_iff hS _).2 htime))
  | cutOff h hends htime =>
    rw [← World.expired_of_limit _ hS]
    refine Work.ends_stableAttempt_of_healthy hS h ((Work.ends_watchFor hends).2 ?_)
    exact fun hallows => Nat.not_lt.2 ((Setting.allows_iff hS _).1 hallows) htime

theorem ends_stableAttempt_iff {S : Setting σ} {r : Except Stop (Attempt Error Unit)}
    (hS : S.limit = some deadline) :
    (Work.stableAttempt node window).Ends S w r w' ↔ Watched S node window deadline w r w' := by
  constructor
  · intro h
    obtain ⟨r₁, w₁, hwatched⟩ := exists_watched S node window deadline w
    obtain ⟨rfl, rfl⟩ := h.unique (hwatched.ends hS)
    exact hwatched
  · exact Watched.ends hS

end Rollout
