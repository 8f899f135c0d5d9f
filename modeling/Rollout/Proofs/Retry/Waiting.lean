import Rollout.Proofs.Etcd.History
import Rollout.Proofs.Retry.Bounds
import Rollout.Proofs.Run.Evolution
import Rollout.Proofs.Watchdog.Stability
import Rollout.Rehearsal.Attempts

/-!
# Waiting for a node is bounded

The attempts of the watchdog and of starting etcd are calls and waits, so their limits hold, and each
begins with a connection, so the journal tells how many there were. Whatever a node answers and whenever
it does, the wait for it is over by its budget and the limit of one attempt.
-/

namespace Rollout

variable {σ ε α β : Type} {S : Setting σ} {w w' : World σ} {node : Node}

def Call.connects : Call → Bool
  | connect _ => true
  | _ => false

def Entry.connects : Entry → Bool
  | sent _ c => c.connects
  | answered _ _ _ => false

/-- How often the run has tried to connect to a node. -/
def World.dials (w : World σ) : ℕ := w.journal.toList.countP Entry.connects

theorem World.Gains.dials {es : List Entry} (h : w.Gains w' es) :
    w'.dials = w.dials + es.countP Entry.connects := by
  unfold World.dials
  rw [h, List.countP_append]

theorem World.Extends.dials (h : w.Extends (fun c => c.connects = false) w') : w'.dials = w.dials := by
  obtain ⟨es, hes, hall⟩ := h.gains
  have hnone : es.countP Entry.connects = 0 := by
    refine List.countP_eq_zero.2 fun e he => ?_
    have hcall : e.call.connects = false := (hall e he).1
    cases e with
    | sent t c => exact Bool.eq_false_iff.1 hcall
    | answered t c a => simp [Entry.connects]
  rw [hes.dials, hnone, Nat.add_zero]

/-- Work that connects first and never again. -/
theorem Work.dials_of_ends_connect_bind {f : Except Error Client → Work σ β} {r : Except Stop β}
    (hf : ∀ a, (f a).Runs S fun c => c.connects = false) (h : (connect node >>= f).Ends S w r w') :
    w'.dials = w.dials + 1 := by
  rcases gains_of_ends_connect_bind h with ⟨e, w₁, hes, hrest⟩ | ⟨client, w₁, -, hes, hrest⟩ | ⟨hes, -⟩
  · rw [(hrest.extends (hf _)).dials, hes.dials]
    rfl
  · rw [(hrest.extends (hf _)).dials, hes.dials]
    rfl
  · exact hes.dials

/-! ## Sequences of attempts -/

namespace TimedAttempt

variable {script : ℕ → TimedAttempt ε α} {P : Call → Prop}

theorem runs_perform {S : Setting (List Instant)} : (perform script).Runs S P := by
  intro w
  obtain ⟨r, w', h, hextends⟩ :
      ∃ r w', (perform script).Ends S w r w' ∧ (begun w).Extends P w' :=
    Work.Runs.bind (.waitUntil _) (fun _ => .pure _) (begun w)
  have hbegun : w.Extends P (begun w) := .of_journal_eq le_rfl rfl
  exact ⟨r, w', h, hbegun.trans hextends⟩

theorem punctual_perform : (perform script).Punctual := by
  intro S w r w' h hw
  exact Work.Punctual.bind (.waitUntil _) (fun _ => .pure _) _ _ _ _ (ends_perform_iff.1 h) hw

/-- The state holds when attempts began, so it counts them. -/
theorem tallied_perform : (perform script).Tallied fun w => w.state.length where
  advance w t := rfl
  attempt {S w w' r} h := by
    have hwait {r₁ : Except Stop Unit} {v : World (List Instant)} {time : Option Instant}
        (h : (Work.waitUntil time).Ends S (begun w) r₁ v) : v.state = (begun w).state := by
      rcases Work.ends_waitUntil_iff.1 h with ⟨t, -, -, -, rfl⟩ | ⟨-, -, rfl⟩
      · rfl
      · exact World.expired_state _ S
    have hstate : w'.state = w.now :: w.state := by
      rcases Work.ends_bind_iff.1 (ends_perform_iff.1 h) with ⟨_, w₁, hfirst, hrest⟩ | ⟨e, hfirst, -⟩
      · obtain ⟨-, rfl⟩ := Work.ends_pure_iff.1 hrest
        exact hwait hfirst
      · exact hwait hfirst
    rw [hstate, List.length_cons]

end TimedAttempt

/-! ## Attempts on a node -/

namespace Work

theorem Punctual.watchFor {window : Duration} {subscribed : Instant} {stream : EventStream} :
    (watchFor window subscribed stream : Work σ _).Punctual := by
  refine .bind .clock fun start => .bind .raisedAt? fun raised => .bind .favours fun favoured => ?_
  dsimp only
  refine .bind (.waitUntil _) fun _ => ?_
  split <;> exact .pure _

theorem Punctual.stableAttempt {window : Duration} : (stableAttempt node window : Work σ _).Punctual := by
  refine .bind .connect fun connection => ?_
  cases connection with
  | error e => exact .pure _
  | ok client =>
    refine .bind .request fun subscription => ?_
    cases subscription with
    | error e => exact .pure _
    | ok stream =>
      refine .bind .clock fun subscribed => .bind .request fun answer => ?_
      cases answer with
      | error e => exact .pure _
      | ok status =>
        dsimp only
        split
        · exact .pure _
        · exact .watchFor

theorem Punctual.etcdAttempt : (etcdAttempt node : Work σ _).Punctual := by
  refine .bind .connect fun connection => ?_
  cases connection with
  | error e => exact .pure _
  | ok client =>
    refine .bind .request fun answer => ?_
    rcases answer with e | _ | state
    · exact .pure _
    · exact .pure _
    dsimp only
    split
    · refine .bind .request fun answer => ?_
      cases answer <;> exact .pure _
    split
    · refine .bind (.bind .request fun answer => ?_) fun n => ?_
      · cases answer <;> exact .pure _
      · split <;> exact .pure _
    · exact .pure _

theorem tallied_stableAttempt {window : Duration} :
    (stableAttempt node window).Tallied (World.dials (σ := σ)) where
  advance w t := rfl
  attempt {S w w' r} h := by
    refine dials_of_ends_connect_bind (fun connection => ?_) h
    cases connection with
    | error e => exact .pure _
    | ok client =>
      refine .bind (.request rfl) fun subscription => ?_
      cases subscription with
      | error e => exact .pure _
      | ok stream =>
        refine .bind .clock fun subscribed => .bind (.request rfl) fun answer => ?_
        cases answer with
        | error e => exact .pure _
        | ok status =>
          dsimp only
          split
          · exact .pure _
          · exact .watchFor _ _

theorem tallied_etcdAttempt : (etcdAttempt node).Tallied (World.dials (σ := σ)) where
  advance w t := rfl
  attempt {S w w' r} h := by
    refine dials_of_ends_connect_bind (fun connection => ?_) h
    cases connection with
    | error e => exact .pure _
    | ok client =>
      refine .bind (.request rfl) fun answer => ?_
      rcases answer with e | _ | state
      · exact .pure _
      · exact .pure _
      dsimp only
      split
      · refine .bind (.request rfl) fun answer => ?_
        cases answer <;> exact .pure _
      split
      · refine .bind (.bind (.request rfl) fun answer => ?_) fun n => ?_
        · cases answer <;> exact .pure _
        · split <;> exact .pure _
      · exact .pure _

/-- The work begun in `w` comes to a result by the time `t`, having tried to connect `n` times at
most. -/
def OverBy (x : Work σ α) (S : Setting σ) (w : World σ) (t : Instant) (n : ℕ) : Prop :=
  ∃ r w', x.Ends S w r w' ∧ r ≠ .error .overdue ∧ w'.now ≤ t ∧
    ∃ es, w.Gains w' es ∧ es.countP Entry.connects ≤ n

theorem overBy_retryOrFail {P : Call → Prop} {b : Budget} {limit : Duration}
    {work : Work σ (Attempt Error α)} {exhausted : String → Error} (hS : S.limit = none)
    (hpause : 0 < b.interval) (hl : b.attemptLimit = some limit) (hruns : ∀ S, work.Runs S P)
    (hpunctual : work.Punctual) (htallied : work.Tallied World.dials) :
    (retryOrFail b work exhausted).OverBy S w (w.now + b.total + limit) b.maxAttempts := by
  obtain ⟨r, w', hends, hextends⟩ := Runs.retryOrFail hS hpause hruns exhausted w
  obtain ⟨es, hes, -⟩ := hextends.gains
  have hbounds {r' : Except Stop (Except (RetryError Error) α)}
      (hretry : (retry b work).Ends S w r' w') :
      w'.now ≤ w.now + b.total + limit ∧ es.countP Entry.connects ≤ b.maxAttempts := by
    have htally := tally_le_of_ends_retry hS hpause htallied hruns hretry
    rw [hes.dials] at htally
    exact ⟨(le_of_ends_retry hS hl hpunctual hruns hretry).1, Nat.le_of_add_le_add_left htally⟩
  rcases ends_retryOrFail_iff.1 hends with ⟨outcome, hretry, rfl⟩ | ⟨e, hretry, rfl⟩
  · refine ⟨_, w', hends, ?_, (hbounds hretry).1, es, hes, (hbounds hretry).2⟩
    rcases outcome with e | a <;> exact nofun
  · refine ⟨_, w', hends, ?_, (hbounds hretry).1, es, hes, (hbounds hretry).2⟩
    have hne := (le_of_ends_retry hS hl hpunctual hruns hretry).2
    rintro ⟨⟩
    exact hne rfl

theorem maxAttempts_stabilizeBudget : (stabilizeBudget stableWindow).maxAttempts = 900 := by
  decide

theorem maxAttempts_etcdBudget : etcdBudget.maxAttempts = 120 := by
  decide

/-- Fifteen minutes and a minute and a half. -/
theorem overBy_waitStable (hS : S.limit = none) :
    (waitStable node stableWindow).OverBy S w (w.now + Duration.seconds 990) 900 := by
  have hpause : 0 < (stabilizeBudget stableWindow).interval := by decide
  have h : (waitStable node stableWindow).OverBy S w _ _ :=
    overBy_retryOrFail hS hpause rfl (fun _ => Runs.stableAttempt) .stableAttempt tallied_stableAttempt
  have htime : (stabilizeBudget stableWindow).total + (stableWindow + Duration.seconds 60) =
      Duration.seconds 990 := by decide
  rwa [maxAttempts_stabilizeBudget, Nat.add_assoc, htime] at h

/-- Ten minutes and a quarter of a minute; without a node to start etcd on, no time at all. -/
theorem overBy_ensureEtcd {nodes : List Node} (hS : S.limit = none) :
    (ensureEtcd nodes).OverBy S w (w.now + Duration.seconds 615) 120 := by
  unfold ensureEtcd
  split
  · exact ⟨_, w, ends_pure_iff.2 ⟨rfl, rfl⟩, nofun, Nat.le_add_right _ _, [], .refl w, Nat.zero_le _⟩
  · next seed _ =>
    have hpause : 0 < etcdBudget.interval := by decide
    have h : (retryOrFail etcdBudget (etcdAttempt seed) .bootstrap).OverBy S w _ _ :=
      overBy_retryOrFail hS hpause rfl (fun _ => Runs.etcdAttempt) .etcdAttempt tallied_etcdAttempt
    have htime : etcdBudget.total + Duration.seconds 15 = Duration.seconds 615 := by decide
    rwa [maxAttempts_etcdBudget, Nat.add_assoc, htime] at h

end Work

/-- Waiting is bounded, whatever answers and whenever. A retry with a pause between its attempts makes no
more of them than pauses fit into its total, rounded up, and with a limit for each it comes to a result
by the total and that limit, even if no attempt ever ends. So the wait for a node to be stable is over
after sixteen and a half minutes, the wait for etcd after ten and a quarter. -/
theorem waiting_is_bounded :
    (∀ {ε α : Type} (b : Budget) (script : ℕ → TimedAttempt ε α) (env : Environment (List Instant))
        (cluster : Cluster) (nodes : List Node) (signal : Signal) (w : World (List Instant)),
      0 < b.interval →
      ∃ r w', (retry b (TimedAttempt.perform script)).Ends
          { environment := env, cluster, nodes, signal } w r w' ∧
        w'.state.length ≤ w.state.length + max 1 (b.total ⌈/⌉ b.interval) ∧
        ∀ limit, b.attemptLimit = some limit →
          r ≠ .error .overdue ∧ w'.now ≤ w.now + b.total + limit) ∧
    ∀ {σ : Type} (env : Environment σ) (cluster : Cluster) (nodes : List Node) (signal : Signal)
        (w : World σ),
      let S : Setting σ := { environment := env, cluster, nodes, signal }
      (∀ node, (Work.waitStable node stableWindow).OverBy S w (w.now + Duration.seconds 990) 900) ∧
      ∀ targets, (Work.ensureEtcd targets).OverBy S w (w.now + Duration.seconds 615) 120 := by
  constructor
  · intro ε α b script env cluster nodes signal w hpause
    have hruns (S : Setting (List Instant)) : (TimedAttempt.perform script).Runs S fun _ => True :=
      TimedAttempt.runs_perform
    obtain ⟨r, w', hends, -⟩ := Work.Runs.retry
      (S := { environment := env, cluster, nodes, signal }) rfl hpause hruns w
    refine ⟨r, w', hends, ?_, fun limit hl => ?_⟩
    · exact tally_le_of_ends_retry rfl hpause TimedAttempt.tallied_perform hruns hends
    · exact (le_of_ends_retry rfl hl TimedAttempt.punctual_perform hruns hends).symm
  · intro σ env cluster nodes signal w
    exact ⟨fun node => Work.overBy_waitStable rfl, fun targets => Work.overBy_ensureEtcd rfl⟩

/-- Ten seconds in all, pauses of three and a limit of two: four attempts that never end, and all is over
after twelve. -/
theorem unending_attempts_are_given_up :
    0 < Duration.seconds 3 ∧
    ∃ r w', (retry ⟨.seconds 10, .seconds 3, some (.seconds 2)⟩
        (TimedAttempt.perform fun _ => (⟨none, .success ()⟩ : TimedAttempt Error Unit))).Ends
        { environment := ScriptedAttempt.silence _, cluster := ⟨"", "", none, []⟩, nodes := [] }
        { state := [] } r w' ∧
      w'.state.length ≤ 4 ∧ r ≠ .error .overdue ∧ w'.now ≤ Duration.seconds 12 := by
  have hpause : 0 < Duration.seconds 3 := by decide
  obtain ⟨r, w', hends, hattempts, htime⟩ := waiting_is_bounded.1
    ⟨.seconds 10, .seconds 3, some (.seconds 2)⟩
    (fun _ => (⟨none, .success ()⟩ : TimedAttempt Error Unit)) (ScriptedAttempt.silence _)
    ⟨"", "", none, []⟩ [] .never { state := [] } hpause
  exact ⟨hpause, r, w', hends, hattempts, htime _ rfl⟩

end Rollout
