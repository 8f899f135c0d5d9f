import Rollout.Proofs.Apply.Course

/-!
# What the turns of a run have approved

What a turn leaves in the journal is known, so what several leave is. A commit is looked up in the turn
that sent it, an outcome in the turn it is of.
-/

namespace Rollout

variable {σ : Type} {S : Setting σ} {options : ApplyOptions} {stabilize : Bool}
  {eligible : List Observation} {w w' : World σ} {r : Except Stop (List ApplyOutcome)}
  {before after es : List Entry} {o : Observation} {host : String}

/-- A call that settles what a node gets: a configuration goes out, or the operator is shown something or
asked. -/
def Call.Negotiates (c : Call) : Prop :=
  (∃ client data dryRun, c = .request client (.applyConfiguration data dryRun)) ∨ c.node? = none

theorem Observes.not_negotiates {c : Call} (h : Observes c) : ¬ c.Negotiates := by
  obtain ⟨node, step, rfl⟩ := h
  rintro (⟨client, data, dryRun, h⟩ | h) <;> cases step <;> cases h

theorem Watches.not_negotiates {node : Node} {c : Call} (h : Watches node c) : ¬ c.Negotiates := by
  rintro (⟨client, data, dryRun, rfl⟩ | hnone)
  · rcases h with h | ⟨client', -, h | h⟩ <;> cases h
  · rcases h with rfl | ⟨client, -, rfl | rfl⟩ <;> cases hnone

theorem StartsEtcd.not_negotiates {seed : Node} {c : Call} (h : StartsEtcd seed c) :
    ¬ c.Negotiates := by
  rintro (⟨client, data, dryRun, rfl⟩ | hnone)
  · rcases h with h | ⟨client', -, h | h | h⟩ <;> cases h
  · cases h.node?_eq.symm.trans hnone

def CommitAccepted (es : List Entry) (host : String) : Prop :=
  ∃ t client data reply, client.node.host = host ∧
    .answered t (.request client (.applyConfiguration data false)) (.ok reply) ∈ es

/-- The operator has seen what a configuration would change on the host, and said no. -/
def refused (client : Client) (data : Bytes) (reply : ApplyReply)
    (t₀ t₁ t₂ t₃ t₄ t₅ t₆ t₇ : Instant) : List Entry :=
  previewed client data reply t₀ t₁ t₂ t₃ ++ exchange (.display reply.details) t₄ t₅ (.ok ()) ++
    exchange (.ask (Work.applyQuestion client.node.host reply.mode)) t₆ t₇ (.ok false)

def OperatorDeclined (es : List Entry) (host : String) : Prop :=
  ∃ client data reply t₀ t₁ t₂ t₃ t₄ t₅ t₆ t₇, client.node.host = host ∧
    refused client data reply t₀ t₁ t₂ t₃ t₄ t₅ t₆ t₇ <:+: es

/-! ## One turn -/

namespace ApplyTrace

variable {e : Entry} {r : Except Stop ApplyOutcome} {t : Instant} {client : Client} {data : Bytes}

theorem before_commit
    (h : ApplyTrace options o
      (before ++ .sent t (.request client (.applyConfiguration data false)) :: after) r) :
    ∃ reply log approval, Previewed o client data reply log ∧ isNoOp reply.details = false ∧
      Approval options o.host reply approval (.ok true) ∧ before = log ++ approval := by
  rcases h.commit_cases with ⟨hnone, -⟩ |
    ⟨client', data', reply, log, approval, es', r', hlog, hchange, happroval, hcommit, hes, -⟩
  · exact absurd ⟨client, data, rfl⟩ (hnone (.sent t _) (by simp))
  have hfirst : ∀ x ∈ log ++ approval, ¬ x.call.Commits :=
    List.forall_mem_append.2 ⟨fun x hx => (hlog.prepares x hx).not_commits,
      fun x hx => Call.not_commits_of_operator (happroval.node?_of_mem x hx)⟩
  obtain ⟨rfl, hcall⟩ := hcommit.eq_of_sent hfirst ⟨client, data, rfl⟩ hes.symm
  cases hcall
  exact ⟨reply, log, approval, hlog, hchange, happroval, rfl⟩

theorem changed_of_accepted {reply : ApplyReply} (h : ApplyTrace options o es r)
    (he : .answered t (.request client (.applyConfiguration data false)) (.ok reply) ∈ es) :
    r = .ok .changed := by
  have hcommits : (Call.request client (.applyConfiguration data false)).Commits :=
    ⟨client, data, rfl⟩
  rcases h.commit_cases with ⟨hnone, -⟩ |
    ⟨client', data', reply', log, approval, es', r', hlog, -, happroval, hcommit, rfl, rfl⟩
  · exact absurd hcommits (hnone _ he)
  · rcases List.mem_append.1 he with he | he
    · rcases List.mem_append.1 he with he | he
      · exact absurd hcommits (hlog.prepares _ he).not_commits
      · exact absurd hcommits (Call.not_commits_of_operator (happroval.node?_of_mem _ he))
    · cases hcommit.call_of_mem _ he
      rw [hcommit.eq_of_mem_answered he]
      rfl

theorem accepted_of_changed (h : ApplyTrace options o es (.ok .changed)) :
    CommitAccepted es o.host := by
  rcases h.commit_cases with ⟨-, hnot⟩ |
    ⟨client, data, reply, log, approval, es', r', hlog, -, -, hcommit, rfl, hr⟩
  · exact absurd rfl hnot
  · cases r' with
    | error => cases hr
    | ok reply' =>
      obtain ⟨t, t', rfl⟩ := hcommit.ok_cases
      cases hlog with
      | intro hconfig hclient =>
        exact ⟨t', client, data, reply', congrArg Node.host hclient, by simp⟩

/-- A no makes the outcome, and the turn ends with it. -/
theorem skipped_of_no {question : String}
    (h : ApplyTrace options o (before ++ .answered t (.ask question) (.ok false) :: after) r) :
    r = .ok .skipped ∧ ∃ client data reply t₀ t₁ t₂ t₃ t₄ t₅ t₆, client.node = o.node ∧
      before = previewed client data reply t₀ t₁ t₂ t₃ ++
        exchange (.display reply.details) t₄ t₅ (.ok ()) ++ [.sent t₆ (.ask question)] := by
  rcases h.no_cases with ⟨hnone, -⟩ |
    ⟨client, data, reply, log, t₄, t₅, t₆, t₇, hlog, hes, hr⟩
  · exact absurd (by simp) (hnone t question)
  refine ⟨hr, ?_⟩
  have hsplit : before ++ .answered t (.ask question) (.ok false) :: after =
      (log ++ exchange (.display reply.details) t₄ t₅ (.ok ()) ++
        [.sent t₆ (.ask (Work.applyQuestion o.host reply.mode))]) ++
        .answered t₇ (.ask (Work.applyQuestion o.host reply.mode)) (.ok false) :: [] := by
    simpa [exchange] using hes
  have hfirst : ∀ x ∈ log ++ exchange (.display reply.details) t₄ t₅ (.ok ()) ++
      [.sent t₆ (.ask (Work.applyQuestion o.host reply.mode))],
      ¬ ∃ t question, x = .answered t (.ask question) (.ok false) := by
    rintro x hx ⟨t', question', rfl⟩
    rcases List.mem_append.1 hx with hx | hx
    · rcases List.mem_append.1 hx with hx | hx
      · cases (hlog.prepares _ hx).node?_eq
      · cases call_of_mem_exchange hx
    · cases List.mem_singleton.1 hx
  obtain ⟨rfl, he, -⟩ := split_unique
    (P := fun x => ∃ t question, x = .answered t (.ask question) (.ok false)) hsplit rfl
    ⟨t, question, rfl⟩ hfirst (by simp)
  cases he
  cases hlog with
  | @intro t₀ t₁ t₂ t₃ _ hclient =>
    exact ⟨client, data, reply, t₀, t₁, t₂, t₃, t₄, t₅, t₆, hclient, rfl⟩

theorem refused_of_skipped (h : ApplyTrace options o es (.ok .skipped)) :
    OperatorDeclined es o.host := by
  rcases h.no_cases with ⟨-, hnot⟩ |
    ⟨client, data, reply, log, t₄, t₅, t₆, t₇, hlog, rfl, -⟩
  · exact absurd rfl hnot
  · cases hlog with
    | @intro t₀ t₁ t₂ t₃ _ hclient =>
      have hhost : client.node.host = o.host := congrArg Node.host hclient
      have hsame : refused client data reply t₀ t₁ t₂ t₃ t₄ t₅ t₆ t₇ =
          previewed client data reply t₀ t₁ t₂ t₃ ++ exchange (.display reply.details) t₄ t₅ (.ok ()) ++
            exchange (.ask (Work.applyQuestion o.host reply.mode)) t₆ t₇ (.ok false) := by
        rw [refused, hhost]
      exact ⟨client, data, reply, t₀, t₁, t₂, t₃, t₄, t₅, t₆, t₇, hhost, [], [],
        (List.append_nil _).trans hsame⟩

end ApplyTrace

/-! ## All turns -/

variable {as : List ApplyOutcome}

/-- An entry that settles something stands in what the turn of `o` leaves before the node is watched. The
outcome of that part is the outcome of the turn, unless a changed node is watched in vain. -/
inductive Negotiated (S : Setting σ) (options : ApplyOptions) (stabilize : Bool)
    (eligible : List Observation) (w : World σ) (before : List Entry) (e : Entry)
    (r : Except Stop (List ApplyOutcome)) (w' : World σ) : Prop
  | intro {o later v front mid back r₁ r₂ u piece rest}
      (hbegins : TurnBegins (applyTurns S options stabilize) eligible w front o later v)
      (hbefore : before = front ++ mid) (hturn : applyTurns S options stabilize o v r₁ u)
      (hpiece : v.Gains u piece) (hrest : u.Gains w' rest) (hcall : InTurn o.node e.call)
      (htrace : ApplyTrace options o (mid ++ e :: back) r₂) (hok : ∀ a, r₁ = .ok a → r₂ = .ok a)
      (hquiet : ∀ a, r₂ = .ok a → a ≠ .changed → r₁ = .ok a)
      (hnext : (∃ a r₃, r₁ = .ok a ∧ Turnwise (applyTurns S options stabilize) later u r₃ w') ∨
        ∃ stop, r₁ = .error stop ∧ r = .error stop ∧ u = w')
      (hresult : ∀ as, r = .ok as → ∃ a, r₁ = .ok a ∧ (o, a) ∈ eligible.zip as) :
      Negotiated S options stabilize eligible w before e r w'

theorem negotiated_of_gains (hlimit : S.limit = none)
    (hturns : Turnwise (applyTurns S options stabilize) eligible w r w') {e : Entry}
    (hes : w.Gains w' (before ++ e :: after)) (he : e.call.Negotiates) :
    Negotiated S options stabilize eligible w before e r w' := by
  have hextends : ∀ o w r w', applyTurns S options stabilize o w r w' → w.Extends (InTurn o.node) w' :=
    extends_of_ends_applyTurn hlimit
  obtain ⟨hbegins, hbefore, hturn, hpiece, -, hrest, hnext, hresult⟩ := hturns.stands hextends hes
  obtain ⟨back, r₂, htrace, hok, hquiet⟩ :=
    (Work.watchedTurn_of_ends_applyTurn hturn).of_split hlimit hpiece
      fun hwatches => hwatches.not_negotiates he
  have hcall := ((hextends _ _ _ _ hturn).forall_mem hpiece e (by simp)).1
  exact .intro hbegins hbefore hturn hpiece hrest hcall htrace hok
    (fun a ha hchanged => hquiet a ha (options.not_watches hchanged)) hnext hresult

theorem commit_vetted (hlimit : S.limit = none)
    (hturns : Turnwise (applyTurns S options stabilize) eligible w r w') {t : Instant}
    {client : Client} {data : Bytes}
    (hes : w.Gains w'
      (before ++ .sent t (.request client (.applyConfiguration data false)) :: after)) :
    ∃ front o later v reply log approval,
      TurnBegins (applyTurns S options stabilize) eligible w front o later v ∧
      Previewed o client data reply log ∧ isNoOp reply.details = false ∧
      Approval options o.host reply approval (.ok true) ∧ before = front ++ log ++ approval := by
  obtain ⟨hbegins, rfl, -, -, -, -, htrace, -, -, -, -⟩ :=
    negotiated_of_gains hlimit hturns hes (.inl ⟨client, data, false, rfl⟩)
  obtain ⟨reply, log, approval, hlog, hchange, happroval, rfl⟩ := htrace.before_commit
  exact ⟨_, _, _, _, reply, log, approval, hbegins, hlog, hchange, happroval,
    (List.append_assoc ..).symm⟩

theorem mem_zip_hosts {a : ApplyOutcome} :
    (host, a) ∈ (eligible.map (·.host)).zip as ↔ ∃ o, o.host = host ∧ (o, a) ∈ eligible.zip as := by
  rw [List.zip_map_left, List.mem_map]
  constructor
  · rintro ⟨⟨o, a'⟩, hmem, heq⟩
    cases heq
    exact ⟨o, rfl, hmem⟩
  · rintro ⟨o, rfl, hmem⟩
    exact ⟨(o, a), hmem, rfl⟩

theorem exists_trace (hlimit : S.limit = none)
    (hturns : Series (applyTurns S options stabilize) eligible w as w') (hes : w.Gains w' es)
    {a : ApplyOutcome} (hmem : (o, a) ∈ eligible.zip as) :
    ∃ log, log <:+: es ∧ ApplyTrace options o log (.ok a) := by
  obtain ⟨earlier, later, as₁, as₂, v, u, rfl, hearlier, hturn, hlater⟩ := hturns.exists_turn hmem
  have hextends : ∀ o w r w', applyTurns S options stabilize o w r w' → w.Extends (InTurn o.node) w' :=
    extends_of_ends_applyTurn hlimit
  obtain ⟨front, hfront, -⟩ := (Turnwise.extends_of_turns hextends (.finished hearlier)).gains
  obtain ⟨rest, hrest, -⟩ := (Turnwise.extends_of_turns hextends (.finished hlater)).gains
  obtain ⟨log, watch, hlog, -, hcases⟩ := (Work.watchedTurn_of_ends_applyTurn hturn).parts hlimit
  obtain rfl := hes.unique (hfront.trans (hlog.trans hrest))
  rcases hcases with ⟨-, -, hr⟩ | ⟨r₁, htrace, hok, -⟩
  · cases hr
  · obtain rfl := hok a rfl
    exact ⟨log, ⟨front, watch ++ rest, by simp⟩, htrace⟩

theorem CommitAccepted.mono (h : CommitAccepted es host) {es' : List Entry} (hes : es <:+: es') :
    CommitAccepted es' host := by
  obtain ⟨t, client, data, reply, hhost, hmem⟩ := h
  exact ⟨t, client, data, reply, hhost, hes.subset hmem⟩

theorem OperatorDeclined.mono (h : OperatorDeclined es host) {es' : List Entry}
    (hes : es <:+: es') : OperatorDeclined es' host := by
  obtain ⟨client, data, reply, t₀, t₁, t₂, t₃, t₄, t₅, t₆, t₇, hhost, hinfix⟩ := h
  exact ⟨client, data, reply, t₀, t₁, t₂, t₃, t₄, t₅, t₆, t₇, hhost, hinfix.trans hes⟩

section

/-! What a run leaves before and after the turns is `others` and `rest`: nothing is settled there. -/

variable {others rest : List Entry}

/-- A host is recorded as changed exactly if a commit to it was accepted. -/
theorem changed_iff (hlimit : S.limit = none) (hothers : ∀ e ∈ others, ¬ e.call.Negotiates)
    (hturns : Series (applyTurns S options stabilize) eligible w as w') (hes : w.Gains w' es)
    (hrest : ∀ e ∈ rest, ¬ e.call.Negotiates) :
    (host, .changed) ∈ (eligible.map (·.host)).zip as ↔ CommitAccepted (others ++ es ++ rest) host := by
  rw [mem_zip_hosts]
  constructor
  · rintro ⟨o, rfl, hmem⟩
    obtain ⟨log, hlog, htrace⟩ := exists_trace hlimit hturns hes hmem
    exact (htrace.accepted_of_changed.mono hlog).mono ⟨others, rest, rfl⟩
  · rintro ⟨t, client, data, reply, rfl, hmem⟩
    have hnegotiates : (Call.request client (.applyConfiguration data false)).Negotiates :=
      .inl ⟨client, data, false, rfl⟩
    obtain ⟨before, after, hsplit⟩ := List.append_of_mem hmem
    obtain ⟨before, after, -, rfl, -⟩ := split_middle hsplit (fun h => hothers _ h hnegotiates)
      (fun h => hrest _ h hnegotiates)
    obtain ⟨-, -, -, -, -, hcall, htrace, hok, -, -, hresult⟩ :=
      negotiated_of_gains hlimit (.finished hturns) hes hnegotiates
    obtain ⟨a, ha, hzip⟩ := hresult as rfl
    have hchanged := htrace.changed_of_accepted (List.mem_append_right _ List.mem_cons_self)
    cases (hok a ha).symm.trans hchanged
    rcases hcall with hcall | hcall
    · exact ⟨_, congrArg Node.host (Option.some.inj hcall.symm), hzip⟩
    · cases hcall

theorem exists_skipped_turn (hlimit : S.limit = none) (hothers : ∀ e ∈ others, ¬ e.call.Negotiates)
    (hturns : Turnwise (applyTurns S options stabilize) eligible w r w') (hes : w.Gains w' es)
    (hrest : ∀ e ∈ rest, ¬ e.call.Negotiates)
    (hdeclined : OperatorDeclined (others ++ es ++ rest) host) :
    ∃ front o later v u r₂, TurnBegins (applyTurns S options stabilize) eligible w front o later v ∧
      o.host = host ∧ applyTurns S options stabilize o v (.ok .skipped) u ∧
      Turnwise (applyTurns S options stabilize) later u r₂ w' ∧
      ∀ as, r = .ok as → (o, .skipped) ∈ eligible.zip as := by
  obtain ⟨client, data, reply, t₀, t₁, t₂, t₃, t₄, t₅, t₆, t₇, rfl, s, tail, hinfix⟩ := hdeclined
  let question := Work.applyQuestion client.node.host reply.mode
  let shown := previewed client data reply t₀ t₁ t₂ t₃ ++
    exchange (.display reply.details) t₄ t₅ (.ok ()) ++ [.sent t₆ (.ask question)]
  have hsplit : others ++ es ++ rest =
      (s ++ shown) ++ .answered t₇ (.ask question) (.ok false) :: tail := by
    rw [← hinfix]
    simp [refused, exchange, shown, question]
  obtain ⟨before, after, hfront, rfl, -⟩ := split_middle hsplit (fun h => hothers _ h (.inr rfl))
    (fun h => hrest _ h (.inr rfl))
  obtain ⟨hbegins, rfl, hturn, -, -, -, htrace, -, hquiet, hnext, hresult⟩ :=
    negotiated_of_gains hlimit hturns hes (.inr rfl)
  obtain ⟨rfl, client', data', reply', t₀', t₁', t₂', t₃', t₄', t₅', t₆', hclient, rfl⟩ :=
    htrace.skipped_of_no
  obtain rfl := hquiet .skipped rfl (by decide)
  -- Both pieces have the same length, so they agree from the connection on.
  have hshown := (List.append_inj' (hfront.trans (List.append_assoc ..).symm) rfl).2
  have hnode : client.node = client'.node := by
    simp only [shown, previewed, opened, exchange, List.cons_append] at hshown
    cases List.cons.inj hshown with
    | intro hhead => exact (Call.connect.inj (Entry.sent.inj hhead).2)
  rcases hnext with ⟨a, r₃, -, hlater⟩ | ⟨stop, hstop, -, -⟩
  · refine ⟨_, _, _, _, _, r₃, hbegins, ?_, hturn, hlater, fun as has => ?_⟩
    · exact congrArg Node.host (hclient.symm.trans hnode.symm)
    · obtain ⟨a', ha', hzip⟩ := hresult as has
      cases ha'
      exact hzip
  · cases hstop

/-- A host is recorded as skipped exactly if the operator declined. -/
theorem skipped_iff (hlimit : S.limit = none) (hothers : ∀ e ∈ others, ¬ e.call.Negotiates)
    (hturns : Series (applyTurns S options stabilize) eligible w as w') (hes : w.Gains w' es)
    (hrest : ∀ e ∈ rest, ¬ e.call.Negotiates) :
    (host, .skipped) ∈ (eligible.map (·.host)).zip as ↔
      OperatorDeclined (others ++ es ++ rest) host := by
  rw [mem_zip_hosts]
  constructor
  · rintro ⟨o, rfl, hmem⟩
    obtain ⟨log, hlog, htrace⟩ := exists_trace hlimit hturns hes hmem
    exact (htrace.refused_of_skipped.mono hlog).mono ⟨others, rest, rfl⟩
  · intro hdeclined
    obtain ⟨front, o, later, v, u, r₂, -, hhost, -, -, hzip⟩ :=
      exists_skipped_turn hlimit hothers (.finished hturns) hes hrest hdeclined
    exact ⟨o, hhost, hzip as rfl⟩

end

/-! ## How often a host gets a configuration -/

theorem sends_of_turn (hlimit : S.limit = none) (dryRun : Bool) (o : Observation) (w : World σ)
    (r : Except Stop ApplyOutcome) (w' : World σ) (es : List Entry)
    (hturn : applyTurns S options stabilize o w r w') (hes : w.Gains w' es) :
    es.countP (Entry.sends dryRun host) ≤ if o.host == host then 1 else 0 := by
  refine (Work.watchedTurn_of_ends_applyTurn hturn).countP_le_of_host hlimit hes ?_ ?_ ?_
  · intro e hsends
    obtain ⟨client, data, hhost, hcall⟩ := Entry.call_of_sends hsends
    exact ⟨client.node, congrArg Call.node? hcall, hhost⟩
  · intro e he
    by_contra hsends
    obtain ⟨client, data, -, hcall⟩ := Entry.call_of_sends (Bool.not_eq_false _ ▸ hsends)
    exact he.not_negotiates (.inl ⟨client, data, dryRun, hcall⟩)
  · intro es r h
    cases dryRun with
    | true => exact h.previews_le_one
    | false => exact h.commits_le_one

theorem countP_sends_le_one (hlimit : S.limit = none) (hhosts : (eligible.map (·.host)).Nodup)
    (hturns : Turnwise (applyTurns S options stabilize) eligible w r w') (hes : w.Gains w' es)
    (dryRun : Bool) : es.countP (Entry.sends dryRun host) ≤ 1 :=
  hturns.countP_le_one (extends_of_ends_applyTurn hlimit) (sends_of_turn hlimit dryRun) hhosts hes

theorem commits_of_skipped_turn (hlimit : S.limit = none) {v u : World σ}
    (hturn : applyTurns S options stabilize o v (.ok .skipped) u) (hes : v.Gains u es) :
    es.countP (Entry.sends false host) = 0 := by
  obtain ⟨log, watch, hlog, hwatch, hcases⟩ :=
    (Work.watchedTurn_of_ends_applyTurn hturn).parts hlimit
  obtain rfl := hes.unique hlog
  refine countP_commits_eq_zero (List.forall_mem_append.2 ⟨?_, ?_⟩)
  · rcases hcases with ⟨rfl, -, -⟩ | ⟨r₁, htrace, hok, -⟩
    · simp
    · obtain rfl := hok .skipped rfl
      rcases htrace.commit_cases with ⟨hnone, -⟩ | ⟨_, _, _, _, _, _, r', -, -, -, -, -, hr⟩
      · exact hnone
      · cases r' <;> cases hr
  · exact fun e he => (hwatch e he).not_commits

/-- After a turn that was skipped or before it, no other turn commits to its host. -/
theorem commits_of_skipped (hlimit : S.limit = none) (hhosts : (eligible.map (·.host)).Nodup)
    {front : List Entry} {later : List Observation} {v u : World σ}
    {r : Except Stop (List ApplyOutcome)}
    (hbegins : TurnBegins (applyTurns S options stabilize) eligible w front o later v)
    (hturn : applyTurns S options stabilize o v (.ok .skipped) u)
    (hlater : Turnwise (applyTurns S options stabilize) later u r w') (hes : w.Gains w' es) :
    es.countP (Entry.sends false o.host) = 0 := by
  have hextends : ∀ o w r w', applyTurns S options stabilize o w r w' → w.Extends (InTurn o.node) w' :=
    extends_of_ends_applyTurn hlimit
  cases hbegins with
  | @intro earlier as hplace hearlier hfront =>
    subst hplace
    obtain ⟨piece, hpiece, -⟩ := (hextends _ _ _ _ hturn).gains
    obtain ⟨rest, hrest, -⟩ := (Turnwise.extends_of_turns hextends hlater).gains
    obtain rfl := hes.unique (hfront.trans (hpiece.trans hrest))
    have hother {records : List Observation} {r : Except Stop (List ApplyOutcome)} {v v' : World σ}
        {log : List Entry} (hrecords : ∀ o' ∈ records, o' ∈ earlier ++ later)
        (hturns : Turnwise (applyTurns S options stabilize) records v r v') (hlog : v.Gains v' log) :
        log.countP (Entry.sends false o.host) = 0 := by
      have hnone : records.countP (·.host == o.host) = 0 := by
        refine List.countP_eq_zero.2 fun o' ho' heq => ?_
        exact ne_of_nodup_middle hhosts o' (hrecords o' ho') (eq_of_beq heq)
      have hle : log.countP (Entry.sends false o.host) ≤ records.countP (·.host == o.host) :=
        hturns.countP_le hextends (sends_of_turn hlimit false) hlog
      rwa [hnone, Nat.le_zero] at hle
    rw [List.countP_append, List.countP_append, commits_of_skipped_turn hlimit hturn hpiece,
      hother (fun _ => List.mem_append_left _) (.finished hearlier) hfront,
      hother (fun _ => List.mem_append_right _) hlater hrest]

end Rollout
