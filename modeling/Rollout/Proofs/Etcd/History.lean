import Rollout.Proofs.Retry.Rounds
import Rollout.Run.Etcd

/-!
# The history of starting etcd

`EtcdAttempt` lists what one attempt can leave in the journal, with what it comes to. A history is a
series of attempts of which all but the last ask to be repeated. Whatever the environment does and whenever
the run is cancelled, starting etcd leaves such a history.
-/

namespace Rollout

/-- The entries of a client's connection to the seed and its answered question for the state of etcd. -/
def stateRead (seed : Node) (client : Client) (t₀ t₁ t₂ : Instant)
    (answer : Except ApiError (Option String)) : List Entry :=
  [.sent t₀ (.connect seed), .answered t₁ (.connect seed) (.ok client.channel),
    .sent t₁ (.request client (.serviceState "etcd")),
    .answered t₂ (.request client (.serviceState "etcd")) answer]

/-- Why an attempt is repeated that finds etcd in a state it can do nothing about. -/
def notReadyReason (state : String) : String := s!"etcd not ready for bootstrap, state: {state}"

/-- What an attempt to start etcd leaves in the journal and what it comes to. -/
inductive EtcdAttempt (seed : Node) : List Entry → Attempt Error EtcdOutcome → Prop
  | silent {t₀} :
      EtcdAttempt seed [.sent t₀ (.connect seed)] (.retry (timeoutReason (.seconds 15)))
  | refused {t₀ t₁ e} :
      EtcdAttempt seed [.sent t₀ (.connect seed), .answered t₁ (.connect seed) (.error e)]
        (.retry e.message)
  | stateSilent {t₀ t₁ client} (hclient : client.node = seed) :
      EtcdAttempt seed
        [.sent t₀ (.connect seed), .answered t₁ (.connect seed) (.ok client.channel),
          .sent t₁ (.request client (.serviceState "etcd"))]
        (.retry (timeoutReason (.seconds 15)))
  | unread {t₀ t₁ t₂ client e} (hclient : client.node = seed) :
      EtcdAttempt seed (stateRead seed client t₀ t₁ t₂ (.error e))
        (.retry s!"read etcd state: {e.message}")
  | absent {t₀ t₁ t₂ client} (hclient : client.node = seed) :
      EtcdAttempt seed (stateRead seed client t₀ t₁ t₂ (.ok none)) (.retry "etcd service not found")
  | otherState {t₀ t₁ t₂ client state} (hclient : client.node = seed)
      (hpreparing : ¬ Text.sameUpToCase state "preparing")
      (hrunning : ¬ Text.sameUpToCase state "running") :
      EtcdAttempt seed (stateRead seed client t₀ t₁ t₂ (.ok (some state)))
        (.retry (notReadyReason state))
  /-- The call that starts etcd is made, and the attempt comes to what is said to it in time. -/
  | startSilent {t₀ t₁ t₂ client state} (hclient : client.node = seed)
      (hpreparing : Text.sameUpToCase state "preparing") :
      EtcdAttempt seed
        (stateRead seed client t₀ t₁ t₂ (.ok (some state)) ++ [.sent t₂ (.request client .bootstrap)])
        (.retry (timeoutReason (.seconds 15)))
  | startRefused {t₀ t₁ t₂ t₃ client state e} (hclient : client.node = seed)
      (hpreparing : Text.sameUpToCase state "preparing") :
      EtcdAttempt seed
        (stateRead seed client t₀ t₁ t₂ (.ok (some state)) ++ [.sent t₂ (.request client .bootstrap),
          .answered t₃ (.request client .bootstrap) (.error e)])
        (.retry s!"bootstrap rpc: {e.message}")
  | started {t₀ t₁ t₂ t₃ client state} (hclient : client.node = seed)
      (hpreparing : Text.sameUpToCase state "preparing") :
      EtcdAttempt seed
        (stateRead seed client t₀ t₁ t₂ (.ok (some state)) ++ [.sent t₂ (.request client .bootstrap),
          .answered t₃ (.request client .bootstrap) (.ok ())])
        (.success .initiated)
  /-- Etcd is running, and the attempt comes to what is said about its members in time. -/
  | membersSilent {t₀ t₁ t₂ client state} (hclient : client.node = seed)
      (hrunning : Text.sameUpToCase state "running") :
      EtcdAttempt seed
        (stateRead seed client t₀ t₁ t₂ (.ok (some state)) ++
          [.sent t₂ (.request client .etcdMembers)])
        (.retry (timeoutReason (.seconds 15)))
  | noMembers {t₀ t₁ t₂ t₃ client state answer} (hclient : client.node = seed)
      (hrunning : Text.sameUpToCase state "running") (hanswer : ∀ n, answer = .ok n → n = 0) :
      EtcdAttempt seed
        (stateRead seed client t₀ t₁ t₂ (.ok (some state)) ++
          [.sent t₂ (.request client .etcdMembers),
            .answered t₃ (.request client .etcdMembers) answer])
        (.retry (notReadyReason state))
  | members {t₀ t₁ t₂ t₃ client state n} (hclient : client.node = seed)
      (hrunning : Text.sameUpToCase state "running") (hn : 0 < n) :
      EtcdAttempt seed
        (stateRead seed client t₀ t₁ t₂ (.ok (some state)) ++
          [.sent t₂ (.request client .etcdMembers),
            .answered t₃ (.request client .etcdMembers) (.ok n)])
        (.success .alreadyBootstrapped)

variable {σ : Type} {S : Setting σ} {seed : Node} {w w' : World σ}

theorem gains_of_ends_etcdMembers {client : Client} {r : Except Stop Nat}
    (h : (Work.etcdMembers client).Ends S w r w') :
    (∃ answer : Except ApiError Nat, r = .ok (answer.toOption.getD 0) ∧
      w.Gains w' [.sent w.now (.request client .etcdMembers),
        .answered w'.now (.request client .etcdMembers) answer]) ∨
      w.Gains w' [.sent w.now (.request client .etcdMembers)] ∧ r = .error .overdue := by
  rcases Work.gains_of_ends_call_bind h with ⟨e | n, w₁, hmembers, h⟩ | hmembers
  · obtain ⟨rfl, rfl⟩ := Work.ends_pure_iff.1 h
    exact .inl ⟨_, rfl, hmembers⟩
  · obtain ⟨rfl, rfl⟩ := Work.ends_pure_iff.1 h
    exact .inl ⟨_, rfl, hmembers⟩
  · exact .inr hmembers

/-- What an attempt leaves in the journal that has read, between `t₀` and now, that etcd is running. -/
theorem gains_of_ends_membersAttempt {client : Client} {state : String}
    {r : Except Stop (Attempt Error EtcdOutcome)} (t₀ t₁ : Instant) (hclient : client.node = seed)
    (hrunning : Text.sameUpToCase state "running")
    (h : (do
      if 0 < (← Work.etcdMembers client) then return .success .alreadyBootstrapped
      return .retry (notReadyReason state) : Work σ _).Ends S w r w') :
    ∃ log, w.Gains w' log ∧
      ((∃ o, r = .ok o ∧
          EtcdAttempt seed (stateRead seed client t₀ t₁ w.now (.ok (some state)) ++ log) o) ∨
        r = .error .overdue ∧
          EtcdAttempt seed (stateRead seed client t₀ t₁ w.now (.ok (some state)) ++ log)
            (.retry (timeoutReason (.seconds 15)))) := by
  rcases Work.ends_bind_iff.1 h with ⟨n, w₁, hmembers, h⟩ | ⟨e, hmembers, rfl⟩
  · rcases gains_of_ends_etcdMembers hmembers with ⟨answer, hn, hgains⟩ | ⟨-, hn⟩
    · cases hn
      split at h
      · next hsome =>
        obtain ⟨rfl, rfl⟩ := Work.ends_pure_iff.1 h
        rcases answer with e | n
        · cases hsome
        · exact ⟨_, hgains, .inl ⟨_, rfl, .members hclient hrunning hsome⟩⟩
      · next hnone =>
        obtain ⟨rfl, rfl⟩ := Work.ends_pure_iff.1 h
        refine ⟨_, hgains, .inl ⟨_, rfl, .noMembers hclient hrunning ?_⟩⟩
        rintro n rfl
        exact Nat.eq_zero_of_not_pos hnone
    · cases hn
  · rcases gains_of_ends_etcdMembers hmembers with ⟨answer, he, -⟩ | ⟨hgains, he⟩
    · cases he
    · cases he
      exact ⟨_, hgains, .inr ⟨rfl, .membersSilent hclient hrunning⟩⟩

/-- What the work of an attempt leaves in the journal; without a result it was cut off. -/
theorem gains_of_ends_etcdAttempt {r : Except Stop (Attempt Error EtcdOutcome)}
    (h : (Work.etcdAttempt seed).Ends S w r w') :
    ∃ es, w.Gains w' es ∧
      ((∃ o, r = .ok o ∧ EtcdAttempt seed es o) ∨
        r = .error .overdue ∧ EtcdAttempt seed es (.retry (timeoutReason (.seconds 15)))) := by
  rcases Work.gains_of_ends_connect_bind h with ⟨e, w₁, hconnect, h⟩ |
    ⟨client, w₁, hclient, hconnect, h⟩ | ⟨hconnect, rfl⟩
  · obtain ⟨rfl, rfl⟩ := Work.ends_pure_iff.1 h
    exact ⟨_, hconnect, .inl ⟨_, rfl, .refused⟩⟩
  · rcases Work.gains_of_ends_call_bind h with ⟨answer, w₂, hstate, h⟩ | ⟨hstate, rfl⟩
    · have hread : w.Gains w₂ (stateRead seed client w.now w₁.now w₂.now answer) :=
        hconnect.trans hstate
      rcases answer with e | _ | state
      · obtain ⟨rfl, rfl⟩ := Work.ends_pure_iff.1 h
        exact ⟨_, hread, .inl ⟨_, rfl, .unread hclient⟩⟩
      · obtain ⟨rfl, rfl⟩ := Work.ends_pure_iff.1 h
        exact ⟨_, hread, .inl ⟨_, rfl, .absent hclient⟩⟩
      · dsimp only at h
        split at h
        · next hpreparing =>
          rcases Work.gains_of_ends_call_bind h with ⟨_ | _, w₃, hstart, h⟩ | ⟨hstart, rfl⟩
          · obtain ⟨rfl, rfl⟩ := Work.ends_pure_iff.1 h
            exact ⟨_, hread.trans hstart, .inl ⟨_, rfl, .startRefused hclient hpreparing⟩⟩
          · obtain ⟨rfl, rfl⟩ := Work.ends_pure_iff.1 h
            exact ⟨_, hread.trans hstart, .inl ⟨_, rfl, .started hclient hpreparing⟩⟩
          · exact ⟨_, hread.trans hstart, .inr ⟨rfl, .startSilent hclient hpreparing⟩⟩
        split at h
        · next _ hrunning =>
          obtain ⟨log, hgains, hlog⟩ :=
            gains_of_ends_membersAttempt w.now w₁.now hclient hrunning h
          exact ⟨_, hread.trans hgains, hlog⟩
        · next hpreparing hrunning =>
          obtain ⟨rfl, rfl⟩ := Work.ends_pure_iff.1 h
          exact ⟨_, hread, .inl ⟨_, rfl, .otherState hclient hpreparing hrunning⟩⟩
    · exact ⟨_, hconnect.trans hstate, .inr ⟨rfl, .stateSilent hclient⟩⟩
  · exact ⟨_, hconnect, .inr ⟨rfl, .silent⟩⟩

theorem gains_of_ends_limited_attempt {r : Except Stop (Attempt Error EtcdOutcome)}
    (h : (etcdBudget.attempt (Work.etcdAttempt seed)).Ends S w r w') :
    ∃ es o, r = .ok o ∧ w.Gains w' es ∧ EtcdAttempt seed es o := by
  have hl : etcdBudget.attemptLimit = some (Duration.seconds 15) := rfl
  rcases (ends_attempt_iff_of_limit hl).1 h with ⟨o, hwork, rfl⟩ | ⟨hwork, rfl⟩ | ⟨e, hwork, rfl⟩
  all_goals obtain ⟨es, hgains, ⟨o', ho, hes⟩ | ⟨ho, hes⟩⟩ := gains_of_ends_etcdAttempt hwork
  · cases ho
    exact ⟨es, o, rfl, hgains, hes⟩
  · cases ho
  · cases ho
  · exact ⟨es, _, rfl, hgains, hes⟩
  · cases ho
  · cases ho

def StartsEtcd (seed : Node) (c : Call) : Prop :=
  c = .connect seed ∨ ∃ client, client.node = seed ∧
    (c = .request client (.serviceState "etcd") ∨ c = .request client .bootstrap ∨
      c = .request client .etcdMembers)

namespace Work

theorem Runs.etcdAttempt : (etcdAttempt seed).Runs S (StartsEtcd seed) := by
  refine .connect_bind (.inl rfl) (fun e => .pure _) fun client hclient => ?_
  refine .bind (.request (.inr ⟨client, hclient, .inl rfl⟩)) fun answer => ?_
  rcases answer with e | _ | state
  · exact .pure _
  · exact .pure _
  dsimp only
  split
  · refine .bind (.request (.inr ⟨client, hclient, .inr (.inl rfl)⟩)) fun answer => ?_
    cases answer <;> exact .pure _
  split
  · refine .bind (.bind (.request (.inr ⟨client, hclient, .inr (.inr rfl)⟩)) fun answer => ?_)
      fun n => ?_
    · cases answer <;> exact .pure _
    · split <;> exact .pure _
  · exact .pure _

theorem Runs.ensureEtcd {nodes : List Node} (hS : S.limit = none) :
    (ensureEtcd nodes).Runs S fun c => ∃ seed ∈ nodes, StartsEtcd seed c := by
  unfold Work.ensureEtcd
  split
  · exact .pure _
  · next seed hseed =>
    have hmem : seed ∈ nodes := List.mem_of_find?_eq_some hseed
    have hpause : 0 < Duration.seconds 5 := by decide
    exact (Runs.retryOrFail hS hpause (fun _ => .etcdAttempt) _).mono fun c hc => ⟨seed, hmem, hc⟩

end Work

/-- The history of attempts that all ask to be repeated, with the last reason. -/
inductive EtcdRetries (seed : Node) : List Entry → Option String → Prop
  | nil : EtcdRetries seed [] none
  | snoc {es last log reason} (h : EtcdRetries seed es last)
      (hlog : EtcdAttempt seed log (.retry reason)) : EtcdRetries seed (es ++ log) (some reason)

def etcdTimeout (elapsed : Duration) (reason : String) : Error :=
  .bootstrap s!"timeout after {elapsed.text}: {reason}"

/-- The history of starting etcd, and what it comes to. -/
inductive EtcdHistory (seed : Node) (elapsed : Duration) : List Entry → Except Stop EtcdOutcome → Prop
  | success {es last log outcome} (h : EtcdRetries seed es last)
      (hlog : EtcdAttempt seed log (.success outcome)) :
      EtcdHistory seed elapsed (es ++ log) (.ok outcome)
  | cancelled {es last} (h : EtcdRetries seed es last) :
      EtcdHistory seed elapsed es (.error (.error .cancelled))
  | exhausted {es last log reason} (h : EtcdRetries seed es last)
      (hlog : EtcdAttempt seed log (.retry reason))
      (hused : Duration.seconds 600 ≤ elapsed + Duration.seconds 5) :
      EtcdHistory seed elapsed (es ++ log) (.error (.error (etcdTimeout elapsed reason)))

theorem etcdRetries_of_chain {started : Instant}
    (h : Relation.ReflTransGen (etcdBudget.Again (Work.etcdAttempt seed) S started) w w') :
    ∃ es last, w.Gains w' es ∧ EtcdRetries seed es last := by
  induction h with
  | refl => exact ⟨[], none, .refl w, .nil⟩
  | tail _ hagain ih =>
    obtain ⟨es, last, hgains, hes⟩ := ih
    cases hagain with
    | again _ hwork =>
      obtain ⟨log, o, ho, hlog, hattempt⟩ := gains_of_ends_limited_attempt hwork
      cases ho
      exact ⟨es ++ log, _, (hgains.trans hlog).of_journal_eq rfl, hes.snoc hattempt⟩

theorem gains_of_ends_retry {r : Except Stop (Except (RetryError Error) EtcdOutcome)}
    (hS : S.limit = none) (h : (retry etcdBudget (Work.etcdAttempt seed)).Ends S w r w') :
    ∃ es outcome, r = .ok outcome ∧ w.Gains w' es ∧
      EtcdHistory seed (w'.now - w.now) es
        ((outcome.mapError (·.toError .bootstrap)).mapError .error) := by
  obtain ⟨w₁, hchain, hround⟩ := (ends_retry_iff hS).1 h
  obtain ⟨es, last, hgains, hes⟩ := etcdRetries_of_chain hchain
  generalize hr : r.map some = r' at hround
  cases hround with
  | cancelled => exact ⟨es, _, map_some_eq_ok_iff.1 hr, hgains, .cancelled hes⟩
  | again => exact absurd hr map_some_ne_ok_none
  | stopped _ hwork =>
    obtain ⟨log, o, ho, -⟩ := gains_of_ends_limited_attempt hwork
    cases ho
  | fatal _ hwork =>
    obtain ⟨log, o, ho, -, hattempt⟩ := gains_of_ends_limited_attempt hwork
    cases ho
    cases hattempt
  | success _ hwork =>
    obtain ⟨log, o, ho, hlog, hattempt⟩ := gains_of_ends_limited_attempt hwork
    cases ho
    exact ⟨_, _, map_some_eq_ok_iff.1 hr, hgains.trans hlog, .success hes hattempt⟩
  | exhausted _ hwork hused =>
    obtain ⟨log, o, ho, hlog, hattempt⟩ := gains_of_ends_limited_attempt hwork
    cases ho
    exact ⟨_, _, map_some_eq_ok_iff.1 hr, hgains.trans hlog, .exhausted hes hattempt hused⟩
  | interrupted _ hwork =>
    obtain ⟨log, o, ho, hlog, hattempt⟩ := gains_of_ends_limited_attempt hwork
    cases ho
    exact ⟨_, _, map_some_eq_ok_iff.1 hr, (hgains.trans hlog).of_journal_eq rfl,
      .cancelled (hes.snoc hattempt)⟩

theorem gains_of_ends_startEtcd {r : Except Stop EtcdOutcome} (hS : S.limit = none)
    (h : (retryOrFail etcdBudget (Work.etcdAttempt seed) .bootstrap).Ends S w r w') :
    ∃ es, w.Gains w' es ∧ EtcdHistory seed (w'.now - w.now) es r := by
  rcases ends_retryOrFail_iff.1 h with ⟨outcome, hretry, rfl⟩ | ⟨e, hretry, rfl⟩
  · obtain ⟨es, outcome', ho, hgains, hes⟩ := gains_of_ends_retry hS hretry
    cases ho
    exact ⟨es, hgains, hes⟩
  · obtain ⟨es, outcome', ho, -⟩ := gains_of_ends_retry hS hretry
    cases ho

end Rollout
