import Rollout.Proofs.Watchdog.Attempt

/-!
# When a node counts as stable

`Qualifies` and `Abandoned` describe one attempt of the watchdog by what the environment answers and
delivers, without any work. Every attempt is one or the other. Waiting for a node ends with the first
attempt that qualifies, or with an error once none may start any more. An item that comes at the very
instant at which a window ends may be taken or not, and all that is said holds either way.
-/

namespace Rollout

variable {σ : Type}

def attemptDeadline (window : Duration) (w : World σ) : Instant :=
  w.now + (window + Duration.seconds 60)

/-- The attempt begun in `w` has its calls answered in a minute, reads a healthy status and then sees the
node healthy for a whole window, which ends in the world `w'`. What comes before the end of the window is
always taken; what comes right at its end is taken if it is favoured. -/
inductive Qualifies (env : Environment σ) (node : Node) (window : Duration) (w : World σ) :
    World σ → Prop
  | intro {client w₁ stream w₂ status w₃}
      (hconnect : w.connection? env node = some (.ok client, w₁))
      (hwatch : w₁.answer? env (.request client .watch) = some (.ok stream, w₂))
      (hstatus : w₂.answer? env (.request client .status) = some (.ok status, w₃))
      (htime : w₃.now ≤ w.now + Duration.seconds 60)
      (hstage : status.stage = .running) (hready : status.readiness.ready = true)
      (hquiet : ∀ front, front <+: stream.timeline w₂.now →
        AllTaken (env.favours w₃.state w₃.now) w₃.now (w₃.now + window) front →
        ∀ p ∈ front, Harmless p.2) :
      Qualifies env node window w (w₃.advance (w₃.now + window))

/-- The same world, with one branch favoured wherever several are ready. -/
def Environment.favouring (env : Environment σ) (favoured : Branch) : Environment σ :=
  { env with favours := fun _ _ _ => favoured }

/-- An attempt that qualifies where items come before the timer does so in any case. -/
theorem Qualifies.of_favouring_item {env : Environment σ} {node : Node} {window : Duration}
    {w w' : World σ} (h : Qualifies (env.favouring .item) node window w w') :
    Qualifies env node window w w' := by
  obtain ⟨hconnect, hwatch, hstatus, htime, hstage, hready, hquiet⟩ := h
  refine .intro hconnect hwatch hstatus htime hstage hready fun front hfront htaken => ?_
  exact hquiet front hfront (allTaken_item_iff.2 fun p hp => htaken.le hp)

/-- An attempt that qualifies in any case does so where the timer comes before items. -/
theorem Qualifies.favouring_timer {env : Environment σ} {node : Node} {window : Duration}
    {w w' : World σ} (h : Qualifies env node window w w') :
    Qualifies (env.favouring .timer) node window w w' := by
  obtain ⟨hconnect, hwatch, hstatus, htime, hstage, hready, hquiet⟩ := h
  refine .intro hconnect hwatch hstatus htime hstage hready fun front hfront htaken => ?_
  exact hquiet front hfront (allTaken_of_lt (allTaken_timer_iff.1 htaken))

/-- The attempt begun in `w` comes to nothing in the world `w'`, and why. -/
inductive Abandoned (env : Environment σ) (node : Node) (window : Duration) (w : World σ) :
    String → World σ → Prop
  | refused {reason w₁} (h : Probe env node (attemptDeadline window w) w (.refused reason) w₁) :
      Abandoned env node window w reason w₁
  | late {w₁} (h : Probe env node (attemptDeadline window w) w .late w₁) :
      Abandoned env node window w (timeoutReason (window + Duration.seconds 60)) w₁
  /-- The first item that is not harmless is taken in the window. -/
  | lost {subscribed stream w₁ before t item after reason}
      (h : Probe env node (attemptDeadline window w) w (.healthy subscribed stream) w₁)
      (hitems : stream.timeline subscribed = before ++ (t, item) :: after)
      (hbefore : ∀ p ∈ before, Harmless p.2) (hlost : lost? item = some reason)
      (htaken : AllTaken (env.favours w₁.state w₁.now) w₁.now (w₁.now + window) (before ++ [(t, item)]))
      (htime : t ≤ attemptDeadline window w) :
      Abandoned env node window w reason (w₁.advance t)
  /-- The window is not over at the deadline. -/
  | cutOff {subscribed stream w₁}
      (h : Probe env node (attemptDeadline window w) w (.healthy subscribed stream) w₁)
      (hwindow : attemptDeadline window w < w₁.now + window)
      (hquiet : ∀ p ∈ stream.timeline subscribed, p.1 ≤ attemptDeadline window w → Harmless p.2) :
      Abandoned env node window w (timeoutReason (window + Duration.seconds 60))
        (w₁.advance (attemptDeadline window w))

/-- After the attempt begun in `w`, which comes to nothing, the next begins in `w'`: a second later, and
less than fifteen minutes after the first. -/
inductive Resumes (env : Environment σ) (node : Node) (window : Duration) (begun : Instant)
    (w : World σ) : World σ → Prop
  | intro {reason w₁} (h : Abandoned env node window w reason w₁)
      (hbudget : w₁.now + Duration.seconds 1 < begun + Duration.seconds 900) :
      Resumes env node window begun w (w₁.advance (w₁.now + Duration.seconds 1))

variable {S : Setting σ} {node : Node} {window : Duration} {w w' : World σ}

theorem Probe.now_le {env : Environment σ} {deadline : Instant} {subscribed : Instant}
    {stream : EventStream}
    (h : Probe env node deadline w (.healthy subscribed stream) w') : w'.now ≤ deadline := by
  cases h with
  | healthy _ _ _ htime => exact htime

theorem Probe.le_now {env : Environment σ} {deadline : Instant} {subscribed : Instant}
    {stream : EventStream}
    (h : Probe env node deadline w (.healthy subscribed stream) w') : w.now ≤ w'.now := by
  cases h with
  | healthy hconnect hwatch hstatus =>
    exact (World.now_le_connection hconnect).trans
      ((World.now_le_answer hwatch).trans (World.now_le_answer hstatus))

/-- Without a signal a window ends with what loses it, or with its time. -/
theorem windowEnds_none_iff {favours : ℕ → Branch} {start stop time : Instant} {sight : Sight}
    {items : List (Instant × Option (Except ApiError NodeEvent))} :
    WindowEnds favours start stop none items (time, sight) ↔
      (∃ before t item after reason, items = before ++ (t, item) :: after ∧
        (∀ p ∈ before, Harmless p.2) ∧ lost? item = some reason ∧
        AllTaken favours start stop (before ++ [(t, item)]) ∧ time = max start t ∧ sight = .lost reason) ∨
      (∀ front, front <+: items → AllTaken favours start stop front → ∀ p ∈ front, Harmless p.2) ∧
        time = stop ∧ sight = .stable := by
  constructor
  · intro h
    generalize hout : (time, sight) = out at h
    cases h with
    | lost hitems hbefore hlost htaken =>
      cases hout
      exact .inl ⟨_, _, _, _, _, hitems, hbefore, hlost, htaken, rfl, rfl⟩
    | quiet hitems hbefore htaken hleft =>
      rw [quietUntil_none] at hout
      cases hout
      exact .inr ⟨fun front hfront => harmless_of_quiet hitems hbefore hleft hfront, rfl, rfl⟩
  · rintro (⟨before, t, item, after, reason, hitems, hbefore, hlost, htaken, rfl, rfl⟩ |
      ⟨hquiet, rfl, rfl⟩)
    · exact .lost hitems hbefore hlost htaken
    · obtain ⟨out, h⟩ := exists_windowEnds favours start time none items
      cases h with
      | @lost before after t item reason hitems hbefore hlost htaken =>
        have hfront : before ++ [(t, item)] <+: items := ⟨after, by simp [hitems]⟩
        exact absurd (hquiet _ hfront htaken (t, item) (by simp)) (not_harmless hlost)
      | quiet hitems hbefore htaken hleft => exact .quiet hitems hbefore htaken hleft

def attemptSetting (S : Setting σ) (window : Duration) (w : World σ) : Setting σ :=
  Work.limited S w (window + Duration.seconds 60)

/-- An attempt under the budget's limit is what it comes to by the deadline, and an attempt that is
overdue then is to be repeated. -/
theorem ends_watchdog_attempt_iff {r : Except Stop (Attempt Error Unit)} :
    ((stabilizeBudget window).attempt (Work.stableAttempt node window)).Ends S w r w' ↔
      (∃ o, Watched (attemptSetting S window w) node window (attemptDeadline window w) w (.ok o) w' ∧
        r = .ok o) ∨
      Watched (attemptSetting S window w) node window (attemptDeadline window w) w
          (.error .overdue) w' ∧
        r = .ok (.retry (timeoutReason (window + Duration.seconds 60))) := by
  have hlimit : (attemptSetting S window w).limit = some (attemptDeadline window w) := rfl
  have hl : (stabilizeBudget window).attemptLimit = some (window + Duration.seconds 60) := rfl
  rw [ends_attempt_iff_of_limit hl]
  change (∃ o, (Work.stableAttempt node window).Ends (attemptSetting S window w) w (.ok o) w' ∧ _) ∨
    ((Work.stableAttempt node window).Ends (attemptSetting S window w) w (.error .overdue) w' ∧ _) ∨
    (∃ e, (Work.stableAttempt node window).Ends (attemptSetting S window w) w
      (.error (.error e)) w' ∧ _) ↔ _
  simp only [ends_stableAttempt_iff hlimit]
  constructor
  · rintro (h | h | ⟨e, h, -⟩)
    · exact .inl h
    · exact .inr h
    · cases h
  · rintro (h | h)
    · exact .inl h
    · exact .inr (.inl h)

variable {reason : String}

theorem Qualifies.ends_attempt (hS : S.signal = .never)
    (h : Qualifies S.environment node window w w') :
    ((stabilizeBudget window).attempt (Work.stableAttempt node window)).Ends S w
      (.ok (.success ())) w' := by
  cases h with
  | @intro client w₁ stream w₂ status w₃ hconnect hwatch hstatus htime hstage hready hquiet =>
    have hlate : w₃.now + window ≤ attemptDeadline window w := by
      unfold attemptDeadline
      grind
    have hprobe : Probe S.environment node (attemptDeadline window w) w
        (.healthy w₂.now stream) w₃ :=
      .healthy hconnect hwatch hstatus ((Nat.le_add_right _ _).trans hlate)
        (status.unhealthy?_eq_none_iff.2 ⟨hstage, hready⟩)
    have hends : w₃.WindowEnds S window (stream.timeline w₂.now) (w₃.now + window, .stable) := by
      unfold World.WindowEnds
      rw [hS]
      exact windowEnds_none_iff.2 (.inr ⟨hquiet, rfl, rfl⟩)
    have hwatched : Watched (attemptSetting S window w) node window (attemptDeadline window w) w
        (.ok Sight.stable.outcome) (w₃.advance (w₃.now + window)) := .seen hprobe hends hlate
    exact ends_watchdog_attempt_iff.2 (.inl ⟨.success (), hwatched, rfl⟩)

theorem Abandoned.ends_attempt (hS : S.signal = .never)
    (h : Abandoned S.environment node window w reason w') :
    ((stabilizeBudget window).attempt (Work.stableAttempt node window)).Ends S w
      (.ok (.retry reason)) w' := by
  rw [ends_watchdog_attempt_iff]
  cases h with
  | refused h => exact .inl ⟨_, .refused h, rfl⟩
  | late h => exact .inr ⟨.late h, rfl⟩
  | @lost subscribed stream w₁ before t item after reason h hitems hbefore hlost htaken htime =>
    have hends : w₁.WindowEnds S window (stream.timeline subscribed) (max w₁.now t, .lost reason) := by
      unfold World.WindowEnds
      rw [hS]
      exact .lost hitems hbefore hlost htaken
    have hwatched : Watched (attemptSetting S window w) node window (attemptDeadline window w) w
        (.ok (Sight.lost reason).outcome) (w₁.advance (max w₁.now t)) :=
      .seen h hends (max_le h.now_le htime)
    rw [World.advance_max] at hwatched
    exact .inl ⟨.retry reason, hwatched, rfl⟩
  | @cutOff subscribed stream w₁ h hwindow hquiet =>
    obtain ⟨⟨time, sight⟩, hends⟩ : ∃ out, w₁.WindowEnds S window (stream.timeline subscribed) out :=
      exists_windowEnds _ _ _ _ _
    refine .inr ⟨.cutOff h hends ?_, rfl⟩
    unfold World.WindowEnds at hends
    rw [hS] at hends
    rcases windowEnds_none_iff.1 hends with
      ⟨before, t, item, after, reason, hitems, -, hlost, -, rfl, -⟩ | ⟨-, rfl, -⟩
    · have hlate : attemptDeadline window w < t := by
        refine Nat.lt_of_not_le fun hle => not_harmless hlost ?_
        exact hquiet (t, item) (by simp [hitems]) hle
      exact hlate.trans_le (le_max_right _ _)
    · exact hwindow

theorem exists_qualifies_or_abandoned (env : Environment σ) (node : Node) (window : Duration)
    (w : World σ) :
    (∃ w', Qualifies env node window w w') ∨
      ∃ reason w', Abandoned env node window w reason w' := by
  obtain ⟨baseline, w₁, h⟩ := exists_probe env node (attemptDeadline window w) w
  cases baseline with
  | refused reason => exact .inr ⟨_, _, .refused h⟩
  | late => exact .inr ⟨_, _, .late h⟩
  | healthy subscribed stream =>
    obtain ⟨⟨time, sight⟩, hends⟩ := exists_windowEnds (env.favours w₁.state w₁.now) w₁.now
      (w₁.now + window) none (stream.timeline subscribed)
    rcases windowEnds_none_iff.1 hends with
      ⟨before, t, item, after, reason, hitems, hbefore, hlost, htaken, -, -⟩ | ⟨hquiet, -, -⟩
    · rcases Nat.lt_or_ge (attemptDeadline window w) t with hlate | hle
      · have hmem : (t, item) ∈ before ++ [(t, item)] := by simp
        have hend : max w₁.now t ≤ w₁.now + window := htaken.le hmem
        refine .inr ⟨_, _, .cutOff h (hlate.trans_le ((le_max_right _ _).trans hend)) ?_⟩
        intro p hp hple
        exact harmless_of_lt (stream.pairwise_timeline subscribed) hitems hbefore p hp
          (hple.trans_lt hlate)
      · exact .inr ⟨_, _, .lost h hitems hbefore hlost htaken hle⟩
    · rcases Nat.lt_or_ge (attemptDeadline window w) (w₁.now + window) with hlate | hle
      · refine .inr ⟨_, _, .cutOff h hlate fun p hp hple => ?_⟩
        have hseen : max w₁.now p.1 < w₁.now + window :=
          max_lt (h.now_le.trans_lt hlate) (hple.trans_lt hlate)
        exact harmless_of_seen_lt (stream.pairwise_timeline subscribed) hquiet p hp hseen
      · cases h with
        | healthy hconnect hwatch hstatus _ hhealthy =>
          obtain ⟨hstage, hready⟩ := (Status.unhealthy?_eq_none_iff _).1 hhealthy
          refine .inl ⟨_, .intro hconnect hwatch hstatus ?_ hstage hready hquiet⟩
          unfold attemptDeadline at hle
          grind

theorem ends_attempt_iff_of_never (hS : S.signal = .never)
    {r : Except Stop (Attempt Error Unit)} :
    ((stabilizeBudget window).attempt (Work.stableAttempt node window)).Ends S w r w' ↔
      (r = .ok (.success ()) ∧ Qualifies S.environment node window w w') ∨
        ∃ reason, r = .ok (.retry reason) ∧ Abandoned S.environment node window w reason w' := by
  constructor
  · intro h
    rcases exists_qualifies_or_abandoned S.environment node window w with
      ⟨w₁, hqualifies⟩ | ⟨reason, w₁, habandoned⟩
    · obtain ⟨rfl, rfl⟩ := h.unique (hqualifies.ends_attempt hS)
      exact .inl ⟨rfl, hqualifies⟩
    · obtain ⟨rfl, rfl⟩ := h.unique (habandoned.ends_attempt hS)
      exact .inr ⟨reason, rfl, habandoned⟩
  · rintro (⟨rfl, h⟩ | ⟨reason, rfl, h⟩)
    · exact h.ends_attempt hS
    · exact h.ends_attempt hS

theorem qualifies_iff_not_abandoned (hS : S.signal = .never) :
    (∃ w', Qualifies S.environment node window w w') ↔
      ¬ ∃ reason w', Abandoned S.environment node window w reason w' := by
  constructor
  · rintro ⟨w₁, h⟩ ⟨reason, w₂, h'⟩
    cases ((h.ends_attempt hS).unique (h'.ends_attempt hS)).1
  · exact (exists_qualifies_or_abandoned S.environment node window w).resolve_right

theorem total_le_iff {begun t : Instant} :
    Duration.seconds 900 ≤ t - begun + Duration.seconds 1 ↔
      begun + Duration.seconds 900 ≤ t + Duration.seconds 1 := by
  simp only [Duration, Instant, Duration.seconds] at *
  omega

theorem again_iff_resumes (hS : S.signal = .never) {begun : Instant} :
    (stabilizeBudget window).Again (Work.stableAttempt node window) S begun w w' ↔
      Resumes S.environment node window begun w w' := by
  have hbudget (t : Instant) : t - begun + Duration.seconds 1 < Duration.seconds 900 ↔
      t + Duration.seconds 1 < begun + Duration.seconds 900 := by
    rw [← Nat.not_le, total_le_iff, Nat.not_le]
  constructor
  · intro h
    cases h with
    | @again reason w₁ _ hwork hleft =>
      rcases (ends_attempt_iff_of_never hS).1 hwork with ⟨hr, -⟩ | ⟨reason, -, habandoned⟩
      · cases hr
      · exact .intro habandoned ((hbudget _).1 hleft)
  · rintro ⟨habandoned, hleft⟩
    exact .again (S.not_raisedBy_of_never hS _ _) (habandoned.ends_attempt hS)
      ((hbudget _).2 hleft) (S.not_raisedBy_of_never hS _ _)

theorem last_round_iff (hS : S.signal = .never) {begun : Instant}
    {r : Except Stop (Except (RetryError Error) Unit)} :
    (stabilizeBudget window).Round (Work.stableAttempt node window) S begun w (r.map some) w' ↔
      (r = .ok (.ok ()) ∧ Qualifies S.environment node window w w') ∨
        ∃ reason, r = .ok (.error (.exhausted (w'.now - begun) reason)) ∧
          Abandoned S.environment node window w reason w' ∧
          begun + Duration.seconds 900 ≤ w'.now + Duration.seconds 1 := by
  constructor
  · intro h
    generalize hr : r.map some = r' at h
    cases h with
    | cancelled hraised => exact absurd hraised (S.not_raisedBy_of_never hS _ _)
    | interrupted _ _ _ hraised => simp [hS, Signal.raisedAt?] at hraised
    | stopped _ hwork =>
      rcases (ends_attempt_iff_of_never hS).1 hwork with ⟨hr, -⟩ | ⟨reason, hr, -⟩ <;> cases hr
    | fatal _ hwork =>
      rcases (ends_attempt_iff_of_never hS).1 hwork with ⟨hr, -⟩ | ⟨reason, hr, -⟩ <;> cases hr
    | success _ hwork =>
      rcases (ends_attempt_iff_of_never hS).1 hwork with ⟨-, hq⟩ | ⟨reason, hr', -⟩
      · exact .inl ⟨map_some_eq_ok_iff.1 hr, hq⟩
      · cases hr'
    | exhausted _ hwork hused =>
      rcases (ends_attempt_iff_of_never hS).1 hwork with ⟨hr', -⟩ | ⟨reason, hr', ha⟩
      · cases hr'
      · cases hr'
        exact .inr ⟨_, map_some_eq_ok_iff.1 hr, ha, total_le_iff.1 hused⟩
    | again => exact absurd hr map_some_ne_ok_none
  · rintro (⟨rfl, h⟩ | ⟨reason, rfl, h, hused⟩)
    · exact .success (S.not_raisedBy_of_never hS _ _) (h.ends_attempt hS)
    · exact .exhausted (S.not_raisedBy_of_never hS _ _) (h.ends_attempt hS) (total_le_iff.2 hused)

/-- What the watchdog calls: only its node, and never to change it. -/
def Watches (node : Node) (c : Call) : Prop :=
  c = .connect node ∨
    ∃ client, client.node = node ∧ (c = .request client .watch ∨ c = .request client .status)

namespace Work

theorem Runs.watchFor {P : Call → Prop} (subscribed : Instant) (stream : EventStream) :
    (watchFor window subscribed stream).Runs S P := by
  refine .bind .clock fun start => .bind .raisedAt? fun raised => .bind .favours fun favoured => ?_
  dsimp only
  refine .bind (.waitUntil _) fun _ => ?_
  split <;> exact .pure _

theorem Runs.stableAttempt : (stableAttempt node window).Runs S (Watches node) := by
  refine .connect_bind (.inl rfl) (fun e => .pure _) fun client hclient => ?_
  refine .bind (.request (.inr ⟨client, hclient, .inl rfl⟩)) fun subscription => ?_
  cases subscription with
  | error e => exact .pure _
  | ok stream =>
    refine .bind .clock fun subscribed => ?_
    refine .bind (.request (.inr ⟨client, hclient, .inr rfl⟩)) fun answer => ?_
    cases answer with
    | error e => exact .pure _
    | ok status =>
      dsimp only
      split
      · exact .pure _
      · exact .watchFor subscribed stream

theorem Runs.waitStable (hS : S.limit = none) : (waitStable node window).Runs S (Watches node) :=
  have hpause : 0 < Duration.seconds 1 := by decide
  .retryOrFail hS hpause (fun _ => .stableAttempt) _

end Work

theorem Watched.le_now {S : Setting σ} {deadline : Instant}
    (h : Watched S node window deadline w (.ok (.success ())) w') : w.now + window ≤ w'.now := by
  generalize hr : (.ok (.success ()) : Except Stop (Attempt Error Unit)) = r at h
  cases h with
  | refused => cases hr
  | late => cases hr
  | cutOff => cases hr
  | @seen subscribed stream w₁ time sight h hends =>
    cases sight with
    | cancelled => cases hr
    | lost => cases hr
    | stable =>
      obtain ⟨rfl, -⟩ := hends.of_stable
      exact (Nat.add_le_add_right h.le_now window).trans (le_max_right _ _)

/-- A node is called stable only after a whole window. -/
theorem le_now_of_ends_waitStable (hlimit : S.limit = none)
    (h : (Work.waitStable node window).Ends S w (.ok ()) w') : w.now + window ≤ w'.now := by
  rcases ends_retryOrFail_iff.1 h with ⟨outcome, hretry, hr⟩ | ⟨e, -, hr⟩
  · rcases outcome with e | ⟨⟩
    · cases hr
    obtain ⟨w₁, hchain, hround⟩ := (ends_retry_iff hlimit).1 hretry
    have hle : w.now ≤ w₁.now := (Work.extends_of_rounds (fun _ => .stableAttempt) hchain).now_le
    cases hround with
    | success _ hwork =>
      rcases ends_watchdog_attempt_iff.1 hwork with ⟨o, hwatched, ho⟩ | ⟨-, ho⟩
      · cases ho
        exact (Nat.add_le_add_right hle window).trans hwatched.le_now
      · cases ho
  · cases hr

theorem Watched.qualifies {S : Setting σ}
    (h : Watched S node window (attemptDeadline window w) w (.ok (.success ())) w') :
    Qualifies S.environment node window w w' := by
  generalize hr : (.ok (.success ()) : Except Stop (Attempt Error Unit)) = r at h
  cases h with
  | refused => cases hr
  | late => cases hr
  | cutOff => cases hr
  | @seen subscribed stream w₁ time sight h hends htime =>
    cases sight with
    | cancelled => cases hr
    | lost => cases hr
    | stable =>
      obtain ⟨rfl, -, hquiet⟩ := hends.of_stable
      cases h with
      | healthy hconnect hwatch hstatus _ hhealthy =>
        obtain ⟨hstage, hready⟩ := (Status.unhealthy?_eq_none_iff _).1 hhealthy
        have hminute : w₁.now ≤ w.now + Duration.seconds 60 := by
          unfold attemptDeadline at htime
          grind
        exact .intro hconnect hwatch hstatus hminute hstage hready hquiet

theorem qualifies_of_ends_waitStable (hlimit : S.limit = none)
    (h : (Work.waitStable node window).Ends S w (.ok ()) w') :
    ∃ v, w.Extends (Watches node) v ∧ Qualifies S.environment node window v w' := by
  rcases ends_retryOrFail_iff.1 h with ⟨outcome, hretry, hr⟩ | ⟨e, -, hr⟩
  · rcases outcome with e | ⟨⟩
    · cases hr
    obtain ⟨v, hchain, hround⟩ := (ends_retry_iff hlimit).1 hretry
    cases hround with
    | success _ hwork =>
      rcases ends_watchdog_attempt_iff.1 hwork with ⟨o, hwatched, ho⟩ | ⟨-, ho⟩
      · cases ho
        have hqualifies := hwatched.qualifies
        exact ⟨v, Work.extends_of_rounds (fun _ => .stableAttempt) hchain, hqualifies⟩
      · cases ho
  · cases hr

def instabilityError (node : Node) (elapsed : Duration) (reason : String) : Error :=
  .stabilize node.host s!"timeout after {elapsed.text}: {reason}"

/-- Without a signal waiting ends with the last of a chain of attempts. -/
theorem ends_waitStable_iff_of_never (hlimit : S.limit = none) (hS : S.signal = .never)
    {r : Except Stop Unit} :
    (Work.waitStable node window).Ends S w r w' ↔
      ∃ v, Relation.ReflTransGen (Resumes S.environment node window w.now) w v ∧
        ((r = .ok () ∧ Qualifies S.environment node window v w') ∨
          ∃ reason, r = .error (.error (instabilityError node (w'.now - w.now) reason)) ∧
            Abandoned S.environment node window v reason w' ∧
            w.now + Duration.seconds 900 ≤ w'.now + Duration.seconds 1) := by
  have hround : (stabilizeBudget window).Again (Work.stableAttempt node window) S w.now =
      Resumes S.environment node window w.now := by
    ext v v'
    exact again_iff_resumes hS
  unfold Work.waitStable
  simp only [ends_retryOrFail_iff, ends_retry_iff hlimit, hround, last_round_iff hS]
  constructor
  · rintro (⟨outcome, ⟨v, hreached, ⟨hr, hv⟩ | ⟨reason, hr, hv⟩⟩, rfl⟩ |
      ⟨e, ⟨v, hreached, ⟨hr, hv⟩ | ⟨reason, hr, hv⟩⟩, rfl⟩)
    · cases hr
      exact ⟨v, hreached, .inl ⟨rfl, hv⟩⟩
    · cases hr
      exact ⟨v, hreached, .inr ⟨reason, rfl, hv⟩⟩
    · cases hr
    · cases hr
  · rintro ⟨v, hreached, ⟨rfl, hv⟩ | ⟨reason, rfl, hv⟩⟩
    · exact .inl ⟨.ok (), ⟨v, hreached, .inl ⟨rfl, hv⟩⟩, rfl⟩
    · exact .inl ⟨_, ⟨v, hreached, .inr ⟨reason, rfl, hv⟩⟩, rfl⟩

/-- With no one to cancel it, the watchdog is sound and complete, whatever is favoured when a window ends. It
calls a node stable at the end of the first attempt that qualifies, which is half a minute after the status
it read; every attempt before was abandoned and followed, a second later, by one from the start. If none
qualifies in time the error tells why the last was abandoned. Only items right at the end of a window count
or not by chance: most attempts qualify if they never do, fewest if they always do. -/
theorem waitStable_sound_and_complete (env : Environment σ) (cluster : Cluster) (nodes : List Node)
    (node : Node) (w : World σ) :
    let S : Setting σ := { environment := env, cluster, nodes }
    let reached := Relation.ReflTransGen (Resumes env node stableWindow w.now) w
    (∀ w', (Work.waitStable node stableWindow).Ends S w (.ok ()) w' ↔
      ∃ v, reached v ∧ Qualifies env node stableWindow v w') ∧
    (∀ stop w', (Work.waitStable node stableWindow).Ends S w (.error stop) w' ↔
      ∃ v reason, reached v ∧ Abandoned env node stableWindow v reason w' ∧
        w.now + Duration.seconds 900 ≤ w'.now + Duration.seconds 1 ∧
        stop = .error (instabilityError node (w'.now - w.now) reason)) ∧
    (∃ r w', (Work.waitStable node stableWindow).Ends S w r w') ∧
    (∀ v, (∃ v', Qualifies env node stableWindow v v') ↔
      ¬ ∃ reason v', Abandoned env node stableWindow v reason v') ∧
    ∀ v v', (Qualifies (env.favouring .item) node stableWindow v v' →
        Qualifies env node stableWindow v v') ∧
      (Qualifies env node stableWindow v v' →
        Qualifies (env.favouring .timer) node stableWindow v v') := by
  intro S reached
  have hS : S.signal = .never := rfl
  have hends {r : Except Stop Unit} {w' : World σ} :
      (Work.waitStable node stableWindow).Ends S w r w' ↔ _ :=
    ends_waitStable_iff_of_never rfl hS
  obtain ⟨r, w', hresult, -⟩ : ∃ r w', (Work.waitStable node stableWindow).Ends S w r w' ∧ _ :=
    Work.Runs.waitStable rfl w
  refine ⟨fun w' => hends.trans ?_, fun stop w' => hends.trans ?_, ⟨r, w', hresult⟩,
    fun v => qualifies_iff_not_abandoned hS, fun v v' => ⟨.of_favouring_item, .favouring_timer⟩⟩
  · constructor
    · rintro ⟨v, hreached, ⟨-, hv⟩ | ⟨reason, hr, -⟩⟩
      · exact ⟨v, hreached, hv⟩
      · cases hr
    · rintro ⟨v, hreached, hv⟩
      exact ⟨v, hreached, .inl ⟨rfl, hv⟩⟩
  · constructor
    · rintro ⟨v, hreached, ⟨hr, -⟩ | ⟨reason, hr, hv, hused⟩⟩
      · cases hr
      · cases hr
        exact ⟨v, reason, hreached, hv, hused, rfl⟩
    · rintro ⟨v, reason, hreached, hv, hused, rfl⟩
      exact ⟨v, hreached, .inr ⟨reason, rfl, hv, hused⟩⟩

end Rollout
