import Rollout.Proofs.Cancellation.Strides

/-!
# Retries and turns heed the signal

A retry looks at the signal before each attempt, so its attempts are strides; a turn is a stride with its
node and, if the watchdog takes over, the attempts of the watchdog. An attempt of the watchdog that
succeeds has seen no signal until its window was over.
-/

namespace Rollout

variable {σ α β ε : Type} {act : Observation → Work σ α} {S : Setting σ} {w w' : World σ}

section

variable {b : Budget} {work : Work σ (Attempt ε β)} {started : Instant} {errand : Errand}
  (hdone : ∀ v r u, (b.attempt work).Ends S v r u →
    errand.Done act S v u ∧ v.Extends (fun _ => True) u)
include hdone

theorem exists_stride {v u : World σ} {r : Except Stop (Attempt ε β)}
    (hraised : ¬ S.RaisedBy v.journal v.now) (h : (b.attempt work).Ends S v r u) :
    ∃ log, (⟨errand, v, u, log⟩ : Stride σ).Taken act S := by
  obtain ⟨hthis, hextends⟩ := hdone v r u h
  obtain ⟨log, hgains, -⟩ := hextends.gains
  exact ⟨log, hraised, hthis, hgains⟩

/-- A round is a stride, or none if the signal is raised. If it succeeds its attempt is the end. -/
theorem Budget.Round.strides {r : Except Stop (Option (Except (RetryError ε) β))}
    (h : b.Round work S started w r w') :
    ∃ ss, Strides act S w ss w' ∧ (∀ s ∈ ss, s.errand = errand) ∧
      ∀ a, r = .ok (some (.ok a)) →
        ∃ s, ss = [s] ∧ s.ended = w' ∧ (b.attempt work).Ends S w (.ok (.success a)) w' := by
  cases h with
  | cancelled => exact ⟨[], .nil, by simp, nofun⟩
  | stopped hraised hwork =>
    obtain ⟨log, htaken⟩ := exists_stride hdone hraised hwork
    exact ⟨[_], .cons htaken .nil, by simp, nofun⟩
  | success hraised hwork =>
    obtain ⟨log, htaken⟩ := exists_stride hdone hraised hwork
    refine ⟨[_], .cons htaken .nil, by simp, ?_⟩
    rintro a ⟨⟩
    exact ⟨_, rfl, rfl, hwork⟩
  | fatal hraised hwork =>
    obtain ⟨log, htaken⟩ := exists_stride hdone hraised hwork
    exact ⟨[_], .cons htaken .nil, by simp, nofun⟩
  | exhausted hraised hwork =>
    obtain ⟨log, htaken⟩ := exists_stride hdone hraised hwork
    exact ⟨[_], .cons htaken .nil, by simp, nofun⟩
  | interrupted hraised hwork =>
    obtain ⟨log, htaken⟩ := exists_stride hdone hraised hwork
    exact ⟨[_], .cons htaken (.pause .nil), by simp, nofun⟩
  | again hraised hwork =>
    obtain ⟨log, htaken⟩ := exists_stride hdone hraised hwork
    exact ⟨[_], .cons htaken (.pause .nil), by simp, nofun⟩

theorem strides_of_chain (h : Relation.ReflTransGen (b.Again work S started) w w') :
    ∃ ss, Strides act S w ss w' ∧ ∀ s ∈ ss, s.errand = errand := by
  induction h with
  | refl => exact ⟨[], .nil, by simp⟩
  | tail _ hagain ih =>
    obtain ⟨ss, hss, herrand⟩ := ih
    obtain ⟨later, hlater, herrand', -⟩ := Budget.Round.strides hdone hagain
    exact ⟨ss ++ later, hss.append hlater, List.forall_mem_append.2 ⟨herrand, herrand'⟩⟩

end

variable {b : Budget} {work : Work σ (Attempt Error β)}

/-- A retry is strides on one errand. If it succeeds the last is the attempt that does. -/
theorem Work.Heeds.retryOrFail (hlimit : S.limit = none) (errand : Errand)
    (hdone : ∀ v r u, (b.attempt work).Ends S v r u →
      errand.Done act S v u ∧ v.Extends (fun _ => True) u)
    (hquiet : ∀ v a u node, (b.attempt work).Ends S v (.ok (.success a)) u →
      errand = .watch node → Quiet S u) (exhausted : String → Error) :
    (retryOrFail b work exhausted).Heeds act S fun _ es => es ≠ [] ∧ ∀ e ∈ es, e = errand := by
  intro w r w' hends
  have hretry : ∃ r₁, (retry b work).Ends S w r₁ w' ∧ ∀ a, r = .ok a → r₁ = .ok (.ok a) := by
    rcases ends_retryOrFail_iff.1 hends with ⟨outcome, h, rfl⟩ | ⟨stop, h, rfl⟩
    · refine ⟨_, h, fun a hr => ?_⟩
      cases outcome with
      | ok a' => cases hr; rfl
      | error => cases hr
    · exact ⟨_, h, nofun⟩
  obtain ⟨r₁, hretry, hok⟩ := hretry
  obtain ⟨w₁, hchain, hround⟩ := (ends_retry_iff hlimit).1 hretry
  obtain ⟨ss, hss, herrand⟩ := strides_of_chain hdone hchain
  obtain ⟨later, hlater, herrand', hlast⟩ := Budget.Round.strides hdone hround
  refine ⟨ss ++ later, hss.append hlater, fun a hr => ?_⟩
  obtain ⟨s, rfl, hover, hsuccess⟩ := hlast a (by rw [hok a hr]; rfl)
  have hall : ∀ s' ∈ ss ++ [s], s'.errand = errand := List.forall_mem_append.2 ⟨herrand, herrand'⟩
  refine ⟨?_, by simp, List.forall_mem_map.2 hall⟩
  unfold Closed
  rw [List.getLast?_concat]
  refine ⟨hover, fun node hnode => hquiet _ _ _ node hsuccess ?_⟩
  rw [← hnode]
  exact (hall s (by simp)).symm

namespace Work.Heeds

/-- An attempt of the watchdog that succeeds ends with its window, before the signal. -/
theorem quiet_of_ends_attempt {node : Node} {v u : World σ}
    (h : ((stabilizeBudget stableWindow).attempt (stableAttempt node stableWindow)).Ends S v
      (.ok (.success ())) u) : Quiet S u := by
  rcases ends_watchdog_attempt_iff.1 h with ⟨o, hwatched, ho⟩ | ⟨-, ho⟩
  · cases ho
    generalize hr : (Except.ok (.success ()) : Except Stop (Attempt Error Unit)) = r at hwatched
    cases hwatched with
    | refused => cases hr
    | late => cases hr
    | cutOff => cases hr
    | @seen subscribed stream w₁ time sight hprobe hends htime =>
      cases sight with
      | cancelled => cases hr
      | lost => cases hr
      | stable =>
        obtain ⟨rfl, hraised, -⟩ := hends.of_stable
        intro c hc
        have hlate : w₁.now + stableWindow ≤ max w₁.now c := hraised c hc
        have hpos : 0 < stableWindow := by decide
        have hstop : w₁.now + stableWindow ≤ c :=
          (le_max_iff.1 hlate).resolve_left (Nat.not_le.2 (Nat.lt_add_of_pos_right hpos))
        exact max_le ((Nat.le_add_right _ _).trans hstop) hstop
  · cases ho

protected theorem waitStable (hlimit : S.limit = none) {node : Node} :
    (waitStable node stableWindow).Heeds act S fun _ es => es ≠ [] ∧ ∀ e ∈ es, e = .watch node := by
  refine .retryOrFail hlimit (.watch node) (fun v r u h => ⟨.watch h, ?_⟩) (fun v a u _ h _ => ?_) _
  · exact (h.extends (.attempt fun _ => .stableAttempt)).mono fun _ _ => trivial
  · exact quiet_of_ends_attempt h

protected theorem ensureEtcd (hlimit : S.limit = none) {nodes : List Node} :
    (ensureEtcd nodes).Heeds act S fun _ es =>
      (seed? nodes = none ∧ es = []) ∨
        ∃ seed, seed? nodes = some seed ∧ es ≠ [] ∧ ∀ e ∈ es, e = .start seed := by
  unfold Work.ensureEtcd
  cases hseed : seed? nodes with
  | none => exact .pure (.inl ⟨rfl, rfl⟩)
  | some seed =>
    refine .imp (.retryOrFail hlimit (.start seed) (fun v r u h => ⟨.start h, ?_⟩)
      (fun v a u node _ hnode => ?_) _) fun _ es hes => .inr ⟨seed, rfl, hes⟩
    · exact (h.extends (.attempt fun _ => .etcdAttempt)).mono fun _ _ => trivial
    · cases hnode

end Work.Heeds

/-- The errands of a turn: one to its node, then attempts of the watchdog if the outcome asks for it. -/
structure TurnErrands (watched : α → Bool) (o : Observation) (a : α) (es : List Errand) : Prop where
  begins : ∃ attempts, es = .turn o :: attempts ∧ ∀ e ∈ attempts, e = .watch o.node
  ends : watched a = true → es.getLast? = some (.watch o.node)

theorem TurnErrands.mem {watched : α → Bool} {o : Observation} {a : α} {es : List Errand}
    (h : TurnErrands watched o a es) : .turn o ∈ es := by
  obtain ⟨⟨attempts, rfl, -⟩, -⟩ := h
  exact List.mem_cons_self

theorem getLast?_eq_of_forall {errand : Errand} {front es : List Errand} (hne : es ≠ [])
    (h : ∀ e ∈ es, e = errand) : (front ++ es).getLast? = some errand := by
  rw [List.getLast?_append_of_ne_nil _ hne, List.getLast?_eq_some_getLast hne]
  exact congrArg some (h _ (List.getLast_mem hne))

theorem Work.Heeds.watchedTurn (hlimit : S.limit = none) {watched : α → Bool} {o : Observation}
    (hact : (act o).Runs S fun _ => True) :
    (Work.watchedTurn act watched o).Heeds act S (TurnErrands watched o) := by
  have hassoc : (Work.watchedTurn act watched o : Work σ α) =
      (checkpoint >>= fun _ => act o) >>= settled watched o := by
    rw [bind_assoc]
    rfl
  rw [hassoc]
  refine .bind (.turn hact) fun a es hes => ?_
  subst hes
  unfold settled
  split
  · refine .bind (.waitStable hlimit) fun _ attempts hattempts => .pure ?_
    rw [List.append_nil]
    exact ⟨⟨attempts, rfl, hattempts.2⟩, fun _ => getLast?_eq_of_forall hattempts.1 hattempts.2⟩
  · next hwatched => exact .pure ⟨⟨[], rfl, by simp⟩, fun h => absurd h hwatched⟩

end Rollout
