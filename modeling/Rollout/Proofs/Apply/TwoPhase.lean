import Rollout.Proofs.Apply.Approval
import Rollout.Proofs.Apply.Run
import Rollout.Proofs.Bootstrap.Course

/-!
# Only what was approved is committed

Both kinds of run that configure nodes have the same course: they gather, the eligible nodes have their
turns, and nothing else they do settles what a node gets. What is known of the turns therefore holds of
whole runs.
-/

namespace Rollout

variable {σ : Type} {S : Setting σ} {p : Policy} {options : ApplyOptions} {w w' : World σ}
  {log : List Entry} {r : Except Stop (List (String × ApplyOutcome))}

/-- The course of a run that configures nodes: what it leaves in the journal, the outcomes it reports,
and the world it ends in. -/
inductive Configures (p : Policy) (options : ApplyOptions) (S : Setting σ) (w : World σ) :
    List Entry → Except Stop (List (String × ApplyOutcome)) → World σ → Prop
  /-- No node has a turn. -/
  | idle {log stop w'} (hlog : w.Gains w' log) (hcalls : ∀ e ∈ log, ¬ e.call.Negotiates) :
      Configures p options S w log (.error stop) w'
  | turns {gathered eligible w₁ stabilize es r₁ v rest r w'}
      (hpass : Passes p S w gathered eligible w₁)
      (hturns : Turnwise (applyTurns S options stabilize) eligible w₁ r₁ v) (hes : w₁.Gains v es)
      (hrest : v.Gains w' rest) (hcalls : ∀ e ∈ rest, ¬ e.call.Negotiates)
      (hreport : ∀ outcomes, r = .ok outcomes →
        ∃ as, r₁ = .ok as ∧ outcomes = (eligible.map (·.host)).zip as) :
      Configures p options S w (gathered ++ es ++ rest) r w'

/-- What stands in the journal of a run before a commit: the gathering, the turns of earlier nodes, and
then, in the turn of the committed node, a preview of the same bytes over the same connection, and its
approval. The bytes are what was rendered for the node while the run gathered. -/
inductive Vetted (p : Policy) (options : ApplyOptions) (S : Setting σ) (w : World σ)
    (before : List Entry) (client : Client) (data : Bytes) : Prop
  | intro {gathered eligible w₁ stabilize front o later v reply t₀ t₁ t₂ t₃ approval}
      (hpass : Passes p S w gathered eligible w₁)
      (hturn : TurnBegins (applyTurns S options stabilize) eligible w₁ front o later v)
      (hclient : client.node = o.node)
      (hrendered : ∀ config, (∃ t, .answered t (.render client.node) (.ok config) ∈ gathered) ↔
        config = data)
      (hbefore : before = gathered ++ front ++ previewed client data reply t₀ t₁ t₂ t₃ ++ approval)
      (hchange : ¬ "\nNo changes.".toList <:+ reply.details.toList)
      (hunasked : options.confirm = false → approval = [])
      (hasked : options.confirm = true → ∃ t₄ t₅ t₆ t₇,
        approval = exchange (.display reply.details) t₄ t₅ (.ok ()) ++
          exchange (.ask (Work.applyQuestion client.node.host reply.mode)) t₆ t₇ (.ok true)) :
      Vetted p options S w before client data

/-- The turn of the host was skipped, and the nodes after it have their turns. -/
inductive Continues (p : Policy) (options : ApplyOptions) (S : Setting σ) (w : World σ) (host : String)
    (w' : World σ) : Prop
  | intro {gathered eligible w₁ stabilize front o later v u r₂ v'}
      (hpass : Passes p S w gathered eligible w₁)
      (hturn : TurnBegins (applyTurns S options stabilize) eligible w₁ front o later v)
      (hhost : o.host = host) (hskipped : applyTurns S options stabilize o v (.ok .skipped) u)
      (hlater : Turnwise (applyTurns S options stabilize) later u r₂ v')
      (hrest : ∃ rest, v'.Gains w' rest ∧ ∀ e ∈ rest, ¬ e.call.Negotiates) :
      Continues p options S w host w'

/-- What holds of everything a run leaves in the journal, and of the outcomes it reports. -/
structure TwoPhase (p : Policy) (options : ApplyOptions) (S : Setting σ) (w : World σ)
    (log : List Entry) (r : Except Stop (List (String × ApplyOutcome))) (w' : World σ) : Prop where
  /-- A host is asked for one preview at most and gets one commit at most. -/
  once : ∀ dryRun host, log.countP (Entry.sends dryRun host) ≤ 1
  vetted : ∀ before t client data after,
    log = before ++ .sent t (.request client (.applyConfiguration data false)) :: after →
      Vetted p options S w before client data
  /-- No host has two outcomes. -/
  distinct : ∀ outcomes, r = .ok outcomes → (outcomes.map (·.1)).Nodup
  changed : ∀ outcomes, r = .ok outcomes → ∀ host,
    (host, .changed) ∈ outcomes ↔ CommitAccepted log host
  skipped : ∀ outcomes, r = .ok outcomes → ∀ host,
    (host, .skipped) ∈ outcomes ↔ OperatorDeclined log host
  declined : ∀ host, OperatorDeclined log host →
    log.countP (Entry.sends false host) = 0 ∧ Continues p options S w host w'

theorem countP_sends_of_not_negotiates {host : String} {dryRun : Bool}
    (h : ∀ e ∈ log, ¬ e.call.Negotiates) : log.countP (Entry.sends dryRun host) = 0 :=
  countP_sends_eq_zero fun e he client data hcall => h e he (.inl ⟨client, data, dryRun, hcall⟩)

theorem not_operatorDeclined {host : String} (h : ∀ e ∈ log, ¬ e.call.Negotiates) :
    ¬ OperatorDeclined log host := by
  rintro ⟨client, data, reply, t₀, t₁, t₂, t₃, t₄, t₅, t₆, t₇, -, hinfix⟩
  have hmem : .sent t₄ (.display reply.details) ∈ log := hinfix.subset (by simp [refused])
  exact h _ hmem (.inr rfl)

/-- A commit of a run was sent in a turn, so it was previewed and approved there. -/
theorem Passes.vetted {gathered es rest before after : List Entry} {eligible : List Observation}
    {stabilize : Bool} {w₁ v : World σ} {r₁ : Except Stop (List ApplyOutcome)}
    (hpass : Passes p S w gathered eligible w₁) (hlimit : S.limit = none)
    (hhosts : (S.nodes.map (·.host)).Nodup)
    (hturns : Turnwise (applyTurns S options stabilize) eligible w₁ r₁ v) (hes : w₁.Gains v es)
    (hcalls : ∀ e ∈ rest, ¬ e.call.Negotiates) {t : Instant} {client : Client} {data : Bytes}
    (hsplit : gathered ++ es ++ rest =
      before ++ .sent t (.request client (.applyConfiguration data false)) :: after) :
    Vetted p options S w before client data := by
  have hnegotiates : (Call.request client (.applyConfiguration data false)).Negotiates :=
    .inl ⟨client, data, false, rfl⟩
  obtain ⟨before, after, rfl, rfl, -⟩ := split_middle hsplit
    (fun h => (hpass.observes _ h).not_negotiates hnegotiates) (fun h => hcalls _ h hnegotiates)
  obtain ⟨front, o, later, v', reply, log, approval, hbegins, hlog, hchange, happroval, rfl⟩ :=
    commit_vetted hlimit hturns hes
  cases hlog with
  | @intro t₀ t₁ t₂ t₃ hconfig hclient =>
    have ho : o ∈ eligible := by
      obtain ⟨rfl, -, -⟩ := hbegins
      simp
    have hrendered (config : Bytes) :
        (∃ t, .answered t (.render client.node) (.ok config) ∈ gathered) ↔ config = data := by
      rw [hclient, ← hpass.config_eq_some_iff hhosts ho, hconfig]
      exact Option.some_inj.trans eq_comm
    have hbefore : gathered ++ (front ++ previewed client data reply t₀ t₁ t₂ t₃ ++ approval) =
        gathered ++ front ++ previewed client data reply t₀ t₁ t₂ t₃ ++ approval := by simp
    refine .intro hpass hbegins hclient hrendered hbefore (isNoOp_eq_false_iff.1 hchange)
      (fun hconfirm => ?_) (fun hconfirm => ?_)
    · rcases happroval.ok_cases with ⟨-, hnil, -⟩ | ⟨h, -⟩
      · exact hnil
      · cases hconfirm.symm.trans h
    · rcases happroval.ok_cases with ⟨h, -⟩ | ⟨-, hasked⟩
      · cases hconfirm.symm.trans h
      · rwa [congrArg Node.host hclient]

theorem Configures.twoPhase (hlimit : S.limit = none) (hhosts : (S.nodes.map (·.host)).Nodup)
    (h : Configures p options S w log r w') : TwoPhase p options S w log r w' := by
  cases h with
  | idle hlog hcalls =>
    refine ⟨?_, ?_, ?_, ?_, ?_, ?_⟩
    · intro dryRun host
      rw [countP_sends_of_not_negotiates hcalls]
      exact Nat.zero_le 1
    · rintro before t client data after rfl
      exact absurd (.inl ⟨client, data, false, rfl⟩) (hcalls (.sent t _) (by simp))
    · rintro outcomes ⟨⟩
    · rintro outcomes ⟨⟩
    · rintro outcomes ⟨⟩
    · exact fun host hdeclined => absurd hdeclined (not_operatorDeclined hcalls)
  | @turns gathered eligible w₁ stabilize es r₁ v rest _ _ hpass hturns hes hrest hcalls hreport =>
    have heligible := hpass.nodup_hosts hhosts
    have hgathered : ∀ e ∈ gathered, ¬ e.call.Negotiates :=
      fun e he => (hpass.observes e he).not_negotiates
    have hcount (dryRun : Bool) (host : String) :
        (gathered ++ es ++ rest).countP (Entry.sends dryRun host) =
          es.countP (Entry.sends dryRun host) := by
      rw [List.countP_append, List.countP_append, countP_sends_of_not_negotiates hgathered,
        countP_sends_of_not_negotiates hcalls, Nat.zero_add, Nat.add_zero]
    refine ⟨?_, ?_, ?_, ?_, ?_, ?_⟩
    · intro dryRun host
      rw [hcount]
      exact countP_sends_le_one hlimit heligible hturns hes dryRun
    · intro before t client data after hsplit
      exact hpass.vetted hlimit hhosts hturns hes hcalls hsplit
    · intro outcomes hr
      obtain ⟨as, rfl, rfl⟩ := hreport outcomes hr
      cases hturns with
      | finished hseries =>
        rw [hseries.map_fst_zip]
        exact heligible
    · intro outcomes hr host
      obtain ⟨as, rfl, rfl⟩ := hreport outcomes hr
      cases hturns with
      | finished hseries => exact changed_iff hlimit hgathered hseries hes hcalls
    · intro outcomes hr host
      obtain ⟨as, rfl, rfl⟩ := hreport outcomes hr
      cases hturns with
      | finished hseries => exact skipped_iff hlimit hgathered hseries hes hcalls
    · intro host hdeclined
      obtain ⟨front, o, later, v', u, r₂, hbegins, rfl, hskipped, hlater, -⟩ :=
        exists_skipped_turn hlimit hgathered hturns hes hcalls hdeclined
      rw [hcount]
      exact ⟨commits_of_skipped hlimit heligible hbegins hskipped hlater hes,
        .intro hpass hbegins rfl hskipped hlater ⟨rest, hrest, hcalls⟩⟩

/-! ## The course of each run -/

section

variable {gathered : List Entry} {eligible : List Observation} {stabilize : Bool} {w₁ v : World σ}
  {r₁ : Except Stop (List ApplyOutcome)}

theorem exists_configures_idle {P : Call → Prop} {stop : Stop} (h : w.Extends P w')
    (hP : ∀ c, P c → ¬ c.Negotiates) :
    ∃ log, w.Gains w' log ∧ Configures p options S w log (.error stop) w' := by
  obtain ⟨log, hlog, hall⟩ := h.gains
  exact ⟨log, hlog, .idle hlog fun e he => hP _ (hall e he).1⟩

theorem Passes.exists_configures {P : Call → Prop} (hpass : Passes p S w gathered eligible w₁)
    (hlimit : S.limit = none) (hturns : Turnwise (applyTurns S options stabilize) eligible w₁ r₁ v)
    (hrest : v.Extends P w') (hP : ∀ c, P c → ¬ c.Negotiates)
    (hreport : ∀ outcomes, r = .ok outcomes →
      ∃ as, r₁ = .ok as ∧ outcomes = (eligible.map (·.host)).zip as) :
    ∃ log, w.Gains w' log ∧ Configures p options S w log r w' := by
  obtain ⟨es, hes⟩ := exists_gains_of_applyTurns hlimit hturns
  obtain ⟨rest, hgains, hall⟩ := hrest.gains
  exact ⟨_, (hpass.gains.trans hes).trans hgains,
    .turns hpass hturns hes hgains (fun e he => hP _ (hall e he).1) hreport⟩

end

theorem not_negotiates_of_startsEtcd {nodes : List Node} (c : Call)
    (h : ∃ seed ∈ nodes, StartsEtcd seed c) : ¬ c.Negotiates := by
  obtain ⟨seed, -, hc⟩ := h
  exact hc.not_negotiates

theorem configures_of_ends_apply (hlimit : S.limit = none) {r : Except Stop ApplyReport}
    (h : (Work.apply options).Ends S w r w') :
    ∃ log, w.Gains w' log ∧
      Configures options.policy options S w log (r.map (·.outcomes)) w' := by
  rw [Work.apply_eq] at h
  cases Work.guarded_of_ends h with
  | silent hgather =>
    exact exists_configures_idle (hgather.extends .gather) fun _ hc => hc.not_negotiates
  | refused hgather =>
    exact exists_configures_idle (hgather.extends .gather) fun _ hc => hc.not_negotiates
  | passed hpass hgo =>
    cases applyCourse_of_ends hgo with
    | unapplied hturns =>
      refine hpass.exists_configures hlimit hturns (.refl w') (P := fun _ => False) (by simp) ?_
      rintro outcomes ⟨⟩
    | @applied as _ hturns =>
      refine hpass.exists_configures hlimit (.finished hturns) (.refl w') (P := fun _ => False)
        (by simp) ?_
      rintro outcomes ⟨⟩
      exact ⟨as, rfl, rfl⟩
    | @started as v r₁ _ hturns _ hetcd =>
      refine hpass.exists_configures hlimit (.finished hturns) (hetcd.extends (.ensureEtcd hlimit))
        not_negotiates_of_startsEtcd fun outcomes hr => ?_
      cases r₁ with
      | error => cases hr
      | ok etcd =>
        cases hr
        exact ⟨as, rfl, rfl⟩

theorem configures_of_ends_bootstrap (hlimit : S.limit = none) {confirm : Bool}
    {r : Except Stop BootstrapReport} (h : (Work.bootstrap confirm).Ends S w r w') :
    ∃ log, w.Gains w' log ∧
      Configures .bootstrap { confirm } S w log (r.map (·.outcomes)) w' := by
  rcases Work.ends_bootstrap_iff.1 h with ⟨-, h⟩ | ⟨e, -, rfl, rfl⟩
  · cases Work.guarded_of_ends h with
    | silent hgather =>
      exact exists_configures_idle (hgather.extends .gather) fun _ hc => hc.not_negotiates
    | refused hgather =>
      exact exists_configures_idle (hgather.extends .gather) fun _ hc => hc.not_negotiates
    | passed hpass hgo =>
      cases bootstrapCourse_of_ends hgo with
      | unapplied hturns =>
        refine hpass.exists_configures hlimit hturns (.refl w') (P := fun _ => False) (by simp) ?_
        rintro outcomes ⟨⟩
      | unstarted hturns hetcd =>
        refine hpass.exists_configures hlimit (.finished hturns) (hetcd.extends (.ensureEtcd hlimit))
          not_negotiates_of_startsEtcd ?_
        rintro outcomes ⟨⟩
      | @watched as v etcd u r₁ _ hturns hetcd hwatch =>
        have hrest : v.Extends (fun c => ¬ c.Negotiates) w' :=
          ((hetcd.extends (.ensureEtcd hlimit)).mono not_negotiates_of_startsEtcd).trans
            ((hwatch.extends_of_turns (extends_of_ends_watchTurn hlimit)).mono fun c hc => by
              obtain ⟨node, -, hc⟩ := hc
              exact hc.not_negotiates)
        refine hpass.exists_configures hlimit (.finished hturns) hrest (fun _ hc => hc) ?_
        intro outcomes hr
        cases r₁ with
        | error => cases hr
        | ok _ =>
          cases hr
          exact ⟨as, rfl, rfl⟩
  · exact exists_configures_idle (P := fun _ => False) (.refl w') (by simp)

/-- Whatever is answered and whenever the run is cancelled, a run that configures nodes ends, and it
commits only what it has previewed and what was approved: each host gets the configuration that was
rendered for it, once at most, after it has said over the same connection what would change and the
operator, if asked, has seen that and agreed. The outcomes tell which hosts accepted theirs and which
were declined, and a decline keeps no other node from its turn. -/
theorem commits_what_was_approved (env : Environment σ) (cluster : Cluster) (nodes : List Node)
    (hhosts : (nodes.map (·.host)).Nodup) (signal : Signal) (w : World σ) :
    let S : Setting σ := { environment := env, cluster, nodes, signal }
    (∀ options : ApplyOptions, ∃ r w' log, (Work.apply options).Ends S w r w' ∧ w.Gains w' log ∧
      TwoPhase options.policy options S w log (r.map (·.outcomes)) w') ∧
    ∀ confirm : Bool, ∃ r w' log, (Work.bootstrap confirm).Ends S w r w' ∧ w.Gains w' log ∧
      TwoPhase .bootstrap { confirm } S w log (r.map (·.outcomes)) w' := by
  intro S
  have hlimit : S.limit = none := rfl
  constructor
  · intro options
    obtain ⟨r, w', h, -⟩ : ∃ r w', (Work.apply options).Ends S w r w' ∧ _ :=
      Work.Runs.apply hlimit w
    obtain ⟨log, hlog, hconfigures⟩ := configures_of_ends_apply hlimit h
    exact ⟨r, w', log, h, hlog, hconfigures.twoPhase hlimit hhosts⟩
  · intro confirm
    obtain ⟨r, w', h, -⟩ : ∃ r w', (Work.bootstrap confirm).Ends S w r w' ∧ _ :=
      Work.Runs.bootstrap hlimit w
    obtain ⟨log, hlog, hconfigures⟩ := configures_of_ends_bootstrap hlimit h
    exact ⟨r, w', log, h, hlog, hconfigures.twoPhase hlimit hhosts⟩

theorem two_nodes_get_what_was_approved :
    (twoNodes.nodes.map (·.host)).Nodup ∧
      ∃ r w' log, (Work.apply { skipPostApplyChecks := true }).Ends twoNodes { state := () } r w' ∧
        CommitAccepted log "a" ∧ CommitAccepted log "b" ∧
        TwoPhase ({ skipPostApplyChecks := true } : ApplyOptions).policy { skipPostApplyChecks := true }
          twoNodes { state := () } log (r.map (·.outcomes)) w' := by
  have hhosts : (twoNodes.nodes.map (·.host)).Nodup := by decide
  obtain ⟨happly, -⟩ := commits_what_was_approved obliging twoNodes.cluster twoNodes.nodes hhosts
    .never { state := () }
  obtain ⟨r, w', log, h, -, htwo⟩ := happly { skipPostApplyChecks := true }
  have hreport : ((Work.apply { skipPostApplyChecks := true }).result? twoNodes { state := () }).map
      (fun p => p.1.toOption.map (·.outcomes)) = some (some [("a", .changed), ("b", .changed)]) := by
    decide +kernel
  have hresult : (Work.apply { skipPostApplyChecks := true }).result? twoNodes { state := () } =
      some (r, w') := h
  rw [hresult] at hreport
  have houtcomes : r.map (·.outcomes) = .ok [("a", .changed), ("b", .changed)] := by
    cases r with
    | error => cases hreport
    | ok report => exact congrArg Except.ok (Option.some.inj (Option.some.inj hreport))
  refine ⟨hhosts, r, w', log, h, ?_, ?_, htwo⟩
  · exact (htwo.changed _ houtcomes "a").1 (by simp)
  · exact (htwo.changed _ houtcomes "b").1 (by simp)

end Rollout
