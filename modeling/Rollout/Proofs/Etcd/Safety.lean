import Mathlib.Data.List.Basic
import Rollout.Proofs.Etcd.History

/-!
# Starting etcd is safe

Started twice, or on the wrong node, etcd is lost. What keeps it safe is read off the history: each entry
belongs to one attempt, an attempt that starts etcd has just read that it is preparing, and after an
attempt that succeeds there is nothing more.
-/

namespace Rollout

variable {seed : Node}

namespace EtcdAttempt

variable {es : List Entry} {o : Attempt Error EtcdOutcome}

theorem node?_of_mem (h : EtcdAttempt seed es o) : ∀ e ∈ es, e.call.node? = some seed := by
  cases h <;> simp [stateRead, Entry.call, Call.node?, *]

/-- The call that starts etcd stands only once in the journal of its attempt. -/
theorem eq_of_start_eq {before after tail : List Entry} {t t₀ t₁ t₂ : Instant} {client client' : Client}
    {state : String} (htail : .sent t (.request client .bootstrap) ∉ tail)
    (hes : stateRead seed client' t₀ t₁ t₂ (.ok (some state)) ++
        .sent t₂ (.request client' .bootstrap) :: tail =
      before ++ .sent t (.request client .bootstrap) :: after) :
    before = stateRead seed client t₀ t₁ t (.ok (some state)) := by
  have hread : .sent t (.request client .bootstrap) ∉
      stateRead seed client' t₀ t₁ t₂ (.ok (some state)) := by simp [stateRead]
  obtain ⟨rfl, heq, -⟩ := (List.append_cons_inj_of_notMem hread htail).1 hes
  cases heq
  rfl

/-- Etcd is told to start by the client that has just read that it is preparing. -/
theorem before_start {before after : List Entry} {t : Instant} {client : Client}
    (h : EtcdAttempt seed (before ++ .sent t (.request client .bootstrap) :: after) o) :
    ∃ t₀ t₁ state, before = stateRead seed client t₀ t₁ t (.ok (some state)) ∧
      Text.sameUpToCase state "preparing" := by
  generalize hes : before ++ .sent t (.request client .bootstrap) :: after = es at h
  have hmem : .sent t (.request client .bootstrap) ∈ es := by simp [← hes]
  cases h with
  | startSilent _ hpreparing => exact ⟨_, _, _, eq_of_start_eq (by simp) hes.symm, hpreparing⟩
  | startRefused _ hpreparing => exact ⟨_, _, _, eq_of_start_eq (by simp) hes.symm, hpreparing⟩
  | started _ hpreparing => exact ⟨_, _, _, eq_of_start_eq (by simp) hes.symm, hpreparing⟩
  | _ => simp [stateRead] at hmem

/-- An attempt whose call to start etcd is accepted has succeeded. -/
theorem of_accepted {before after : List Entry} {t : Instant} {client : Client}
    (h : EtcdAttempt seed (before ++ .answered t (.request client .bootstrap) (.ok ()) :: after) o) :
    after = [] ∧ o = .success .initiated := by
  generalize hes : before ++ .answered t (.request client .bootstrap) (.ok ()) :: after = es at h
  have hmem : .answered t (.request client .bootstrap) (.ok ()) ∈ es := by simp [← hes]
  cases h with
  | @started t₀ t₁ t₂ t₃ client' state =>
    have hread : .answered t (.request client .bootstrap) (.ok ()) ∉
        stateRead seed client' t₀ t₁ t₂ (.ok (some state)) ++
          [.sent t₂ (.request client' .bootstrap)] := by simp [stateRead]
    have hsplit : (stateRead seed client' t₀ t₁ t₂ (.ok (some state)) ++
          [.sent t₂ (.request client' .bootstrap)]) ++
          .answered t₃ (.request client' .bootstrap) (.ok ()) :: [] =
        before ++ .answered t (.request client .bootstrap) (.ok ()) :: after := by
      rw [hes, List.append_assoc]
      rfl
    obtain ⟨-, -, rfl⟩ := (List.append_cons_inj_of_notMem hread (by simp)).1 hsplit
    exact ⟨rfl, rfl⟩
  | _ => simp [stateRead] at hmem

theorem accepted (h : EtcdAttempt seed es (.success .initiated)) :
    ∃ before t client, es = before ++ [.answered t (.request client .bootstrap) (.ok ())] := by
  cases h with
  | @started t₀ t₁ t₂ t₃ client state =>
    exact ⟨stateRead seed client t₀ t₁ t₂ (.ok (some state)) ++
      [.sent t₂ (.request client .bootstrap)], t₃, client, by simp⟩

/-- What an attempt leaves in the journal that finds etcd running with members. -/
def membersRead (seed : Node) (client : Client) (t₀ t₁ t₂ t₃ : Instant) (state : String) (n : Nat) :
    List Entry :=
  stateRead seed client t₀ t₁ t₂ (.ok (some state)) ++
    [.sent t₂ (.request client .etcdMembers), .answered t₃ (.request client .etcdMembers) (.ok n)]

theorem running (h : EtcdAttempt seed es (.success .alreadyBootstrapped)) :
    ∃ client t₀ t₁ t₂ t₃ state n, es = membersRead seed client t₀ t₁ t₂ t₃ state n ∧
      Text.sameUpToCase state "running" ∧ 0 < n := by
  cases h with
  | members _ hrunning hn => exact ⟨_, _, _, _, _, _, _, rfl, hrunning, hn⟩

theorem of_members {before : List Entry} {t : Instant} {client : Client} {n : Nat} (hn : 0 < n)
    (h : EtcdAttempt seed (before ++ [.answered t (.request client .etcdMembers) (.ok n)]) o) :
    o = .success .alreadyBootstrapped := by
  generalize hes : before ++ [.answered t (.request client .etcdMembers) (.ok n)] = es at h
  have hlast : es.getLast? = some (.answered t (.request client .etcdMembers) (.ok n)) := by
    simp [← hes]
  cases h with
  | members => rfl
  | noMembers _ _ hanswer =>
    simp only [stateRead, List.getLast?_append, List.getLast?_cons_cons, List.getLast?_singleton,
      Option.some_or, Option.some.injEq] at hlast
    cases hlast
    exact absurd (hanswer n rfl) hn.ne'
  | _ => simp [stateRead] at hlast

end EtcdAttempt

section Histories

variable {es before after : List Entry} {x : Entry} {elapsed : Duration}
  {r : Except Stop EtcdOutcome}

theorem EtcdRetries.exists_attempt {last : Option String} (h : EtcdRetries seed es last) :
    ∀ {before after}, es = before ++ x :: after →
      ∃ front mid rest others reason, before = front ++ mid ∧ after = rest ++ others ∧
        EtcdAttempt seed (mid ++ x :: rest) (.retry reason) := by
  induction h with
  | nil =>
    intro before after hes
    simp at hes
  | @snoc es last log reason _ hlog ih =>
    intro before after hes
    rcases append_eq_append_cons_cases hes with ⟨mid, hmem, rfl⟩ | ⟨mid, rfl, rfl⟩
    · obtain ⟨front, mid', rest, others, reason', hbefore, hmid, hattempt⟩ := ih hmem
      exact ⟨front, mid', rest, others ++ log, reason', hbefore, by rw [hmid, List.append_assoc],
        hattempt⟩
    · exact ⟨es, mid, after, [], reason, rfl, (List.append_nil _).symm, hlog⟩

/-- Each entry of a history belongs to one of its attempts. One that succeeds is the last. -/
theorem EtcdHistory.exists_attempt (h : EtcdHistory seed elapsed (before ++ x :: after) r) :
    ∃ front mid rest others o, before = front ++ mid ∧ after = rest ++ others ∧
      EtcdAttempt seed (mid ++ x :: rest) o ∧
      ∀ outcome, o = .success outcome → others = [] ∧ r = .ok outcome := by
  generalize hes : before ++ x :: after = es at h
  cases h with
  | @success es last log outcome h hlog =>
    rcases append_eq_append_cons_cases hes.symm with ⟨mid, hmem, rfl⟩ | ⟨mid, rfl, rfl⟩
    · obtain ⟨front, mid', rest, others, reason, hbefore, hmid, hattempt⟩ := h.exists_attempt hmem
      exact ⟨front, mid', rest, others ++ log, _, hbefore, by rw [hmid, List.append_assoc],
        hattempt, by simp⟩
    · refine ⟨es, mid, after, [], _, rfl, (List.append_nil _).symm, hlog, ?_⟩
      rintro outcome ⟨⟩
      exact ⟨rfl, rfl⟩
  | cancelled h =>
    obtain ⟨front, mid, rest, others, reason, hbefore, hafter, hattempt⟩ := h.exists_attempt hes.symm
    exact ⟨front, mid, rest, others, _, hbefore, hafter, hattempt, by simp⟩
  | exhausted h hlog =>
    obtain ⟨front, mid, rest, others, reason, hbefore, hafter, hattempt⟩ :=
      (h.snoc hlog).exists_attempt hes.symm
    exact ⟨front, mid, rest, others, _, hbefore, hafter, hattempt, by simp⟩

end Histories

/-- What holds of everything a run that starts etcd on `seed` adds to the journal, and of its result. An
answer is in the journal only if it came in time. -/
structure StartsSafely (seed : Node) (elapsed : Duration) (es : List Entry)
    (r : Except Stop EtcdOutcome) : Prop where
  /-- Only the seed is called. -/
  only_seed : ∀ e ∈ es, e.call.node? = some seed
  /-- A call to start etcd follows right upon the reading that it is preparing. -/
  guarded : ∀ before t client after, es = before ++ .sent t (.request client .bootstrap) :: after →
    ∃ front t₀ t₁ state, before = front ++ stateRead seed client t₀ t₁ t (.ok (some state)) ∧
      Text.sameUpToCase state "preparing"
  /-- Nothing follows an accepted start. -/
  accepted : ∀ before t client after,
    es = before ++ .answered t (.request client .bootstrap) (.ok ()) :: after →
      after = [] ∧ r = .ok .initiated
  initiated : r = .ok .initiated →
    ∃ before t client, es = before ++ [.answered t (.request client .bootstrap) (.ok ())]
  alreadyBootstrapped : r = .ok .alreadyBootstrapped ↔
    ∃ before client t₀ t₁ t₂ t₃ state n,
      es = before ++ EtcdAttempt.membersRead seed client t₀ t₁ t₂ t₃ state n ∧
      Text.sameUpToCase state "running" ∧ 0 < n
  success : ∀ outcome, r = .ok outcome → outcome = .initiated ∨ outcome = .alreadyBootstrapped
  /-- A failure is a cancellation, or the budget is used up and the last attempt says why. -/
  failure : ∀ stop, r = .error stop → stop = .error .cancelled ∨
    ∃ before log reason, es = before ++ log ∧ EtcdAttempt seed log (.retry reason) ∧
      Duration.seconds 600 ≤ elapsed + Duration.seconds 5 ∧
      stop = .error (etcdTimeout elapsed reason)

theorem EtcdHistory.startsSafely {elapsed : Duration} {es : List Entry} {r : Except Stop EtcdOutcome}
    (h : EtcdHistory seed elapsed es r) : StartsSafely seed elapsed es r where
  only_seed := by
    intro e he
    obtain ⟨before, after, rfl⟩ := List.append_of_mem he
    obtain ⟨front, mid, rest, others, o, -, -, hattempt, -⟩ := h.exists_attempt
    exact hattempt.node?_of_mem e (by simp)
  guarded := by
    rintro before t client after rfl
    obtain ⟨front, mid, rest, others, o, rfl, -, hattempt, -⟩ := h.exists_attempt
    obtain ⟨t₀, t₁, state, rfl, hpreparing⟩ := hattempt.before_start
    exact ⟨front, t₀, t₁, state, rfl, hpreparing⟩
  accepted := by
    rintro before t client after rfl
    obtain ⟨front, mid, rest, others, o, -, rfl, hattempt, hlast⟩ := h.exists_attempt
    obtain ⟨rfl, rfl⟩ := hattempt.of_accepted
    obtain ⟨rfl, hr⟩ := hlast _ rfl
    exact ⟨rfl, hr⟩
  initiated := by
    rintro rfl
    cases h with
    | @success es last log outcome _ hlog =>
      obtain ⟨before, t, client, rfl⟩ := hlog.accepted
      exact ⟨es ++ before, t, client, (List.append_assoc ..).symm⟩
  alreadyBootstrapped := by
    constructor
    · rintro rfl
      cases h with
      | @success es last log outcome _ hlog =>
        obtain ⟨client, t₀, t₁, t₂, t₃, state, n, rfl, hrunning, hn⟩ := hlog.running
        exact ⟨es, client, t₀, t₁, t₂, t₃, state, n, rfl, hrunning, hn⟩
    · rintro ⟨before, client, t₀, t₁, t₂, t₃, state, n, rfl, hrunning, hn⟩
      have hlast : before ++ EtcdAttempt.membersRead seed client t₀ t₁ t₂ t₃ state n =
          (before ++ stateRead seed client t₀ t₁ t₂ (.ok (some state)) ++
            [.sent t₂ (.request client .etcdMembers)]) ++
            .answered t₃ (.request client .etcdMembers) (.ok n) :: [] := by
        simp [EtcdAttempt.membersRead]
      rw [hlast] at h
      obtain ⟨front, mid, rest, others, o, -, hafter, hattempt, ho⟩ := h.exists_attempt
      obtain ⟨rfl, rfl⟩ := List.append_eq_nil_iff.1 hafter.symm
      exact (ho _ (hattempt.of_members hn)).2
  success := by
    rintro outcome rfl
    cases h with
    | success _ hlog => cases hlog <;> simp
  failure := by
    rintro stop rfl
    cases h with
    | cancelled => exact .inl rfl
    | exhausted _ hlog hused => exact .inr ⟨_, _, _, rfl, hlog, hused, rfl⟩

/-- Making sure etcd is started is safe and always ends, whatever the environment does and whenever the
run is cancelled. Without a node to start it on nothing is called at all. -/
theorem ensureEtcd_safe {σ : Type} (env : Environment σ) (cluster : Cluster) (nodes : List Node)
    (signal : Signal) (candidates : List Node) (w : World σ) :
    ∃ r w' es,
      (Work.ensureEtcd candidates).Ends { environment := env, cluster, nodes, signal } w r w' ∧
      w.Gains w' es ∧
      (seed? candidates = none → r = .ok .noControlPlane ∧ es = []) ∧
      ∀ seed, seed? candidates = some seed → StartsSafely seed (w'.now - w.now) es r := by
  obtain ⟨r, w', h, -⟩ : ∃ r w', (Work.ensureEtcd candidates).Ends
      { environment := env, cluster, nodes, signal } w r w' ∧ _ := Work.Runs.ensureEtcd rfl w
  have hends := h
  unfold Work.ensureEtcd at hends
  cases hseed : seed? candidates with
  | none =>
    rw [hseed] at hends
    obtain ⟨rfl, rfl⟩ := Work.ends_pure_iff.1 hends
    exact ⟨_, w', [], h, .refl w', fun _ => ⟨rfl, rfl⟩, by simp⟩
  | some seed =>
    rw [hseed] at hends
    obtain ⟨es, hgains, hes⟩ := gains_of_ends_startEtcd rfl hends
    refine ⟨r, w', es, h, hgains, by simp, ?_⟩
    rintro seed' ⟨⟩
    exact hes.startsSafely

end Rollout
