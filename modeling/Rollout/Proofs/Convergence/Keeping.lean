import Rollout.Proofs.Apply.Evolution
import Rollout.Proofs.Apply.TwoPhase

/-!
# Nodes that keep what they are given

`Environment.Stores` describes a fleet in which every node keeps the last configuration that was committed to
it and knows a change when it is shown one. A node that has what it should have is `Converged`: its turn then
changes nothing. A node whose commit was accepted has converged, and the turns of others do not undo this.
-/

namespace Rollout

variable {σ : Type}

/-- A configuration is sent to the host for good, or the host is reset. -/
def Call.Overwrites (host : String) (c : Call) : Prop :=
  ∃ client, client.node.host = host ∧
    ((∃ data, c = .request client (.applyConfiguration data false)) ∨ ∃ q, c = .request client (.reset q))

def Call.SubscribesTo (host : String) (c : Call) : Prop :=
  ∃ client, client.node.host = host ∧ c = .request client .watch

/-- Every node keeps the last configuration that was committed to it, which `applied` shows. What a commit
does that is not accepted is left open. -/
structure Environment.Stores (env : Environment σ) (applied : String → σ → Option Bytes) : Prop where
  /-- Nothing but a commit to the host or its reset changes its configuration. -/
  kept : ∀ host, env.Keeps (fun c => ¬ c.Overwrites host) (applied host)
  /-- A commit that is accepted does. -/
  stored : ∀ s t client data reply s₁,
    env.respond s t (.request client (.applyConfiguration data false)) = (s₁, .ok reply) →
      applied client.node.host s₁ = some data
  /-- A preview says that nothing changes if and only if the node has this configuration. -/
  previewed : ∀ s t client data reply s₁,
    env.respond s t (.request client (.applyConfiguration data true)) = (s₁, .ok reply) →
      ("\nNo changes.".toList <:+ reply.details.toList ↔ applied client.node.host s = some data)

def Converged (applied : String → σ → Option Bytes) (config : String → Bytes) (host : String) (s : σ) :
    Prop :=
  applied host s = some (config host)

theorem Prepares.not_overwrites {node : Node} {c : Call} {host : String} (h : Prepares node c) :
    ¬ c.Overwrites host := by
  rintro ⟨client, -, ⟨data, rfl⟩ | ⟨q, rfl⟩⟩ <;> rcases h with h | ⟨client', data', -, h⟩ <;> cases h

/-! ## A turn and what its node has -/

section

variable {env : Environment σ} {applied : String → σ → Option Bytes} {config : String → Bytes}
  {options : ApplyOptions} {o : Observation} {s s' : σ} {es log rest : List Entry} {client : Client}
  {data : Bytes} {reply : ApplyReply}

/-- A preview tells whether the node has the configuration that is previewed. -/
theorem Previewed.isNoOp_iff (h : Previewed o client data reply log) (hstores : env.Stores applied)
    (hes : env.Evolves s (log ++ rest) s') : isNoOp reply.details = true ↔ applied o.host s = some data := by
  cases h with
  | intro hconfig hclient =>
    unfold previewed opened at hes
    rw [hclient, List.append_assoc] at hes
    obtain ⟨s₁, hconnect, hes⟩ := hes.of_exchange
    obtain ⟨s₂, hpreview, -⟩ := hes.of_exchange
    have hkept : applied o.host s₁ = applied o.host s :=
      (hstores.kept o.host).respond (Prepares.not_overwrites (.inl rfl)) hconnect
    have htells := hstores.previewed _ _ _ _ _ _ hpreview
    rw [hclient] at htells
    rw [← hkept]
    exact List.isSuffixOf_iff_suffix.trans htells

theorem Previewed.config_eq (h : Previewed o client data reply log) : o.config = some data := by
  obtain ⟨hconfig, -⟩ := h
  exact hconfig

variable (hstores : env.Stores applied) (hconfig : ∀ data, o.config = some data → data = config o.host)

include hstores hconfig

/-- The turn of a node that has converged goes no further than the preview, which says so. -/
theorem ApplyTrace.of_converged {r : Except Stop ApplyOutcome} (h : ApplyTrace options o es r)
    (hes : env.Evolves s (es ++ rest) s') (hconverged : Converged applied config o.host s) :
    (∀ e ∈ es, Prepares o.node e.call) ∧ ∀ a, r = .ok a → a = .unchanged := by
  have hnochange {client : Client} {data : Bytes} {reply : ApplyReply} {log later : List Entry}
      (hlog : Previewed o client data reply log) (hes : env.Evolves s (log ++ later) s') :
      isNoOp reply.details ≠ false := by
    have hsame : applied o.host s = some data := by
      rw [hconfig data hlog.config_eq]
      exact hconverged
    rw [(hlog.isNoOp_iff hstores hes).2 hsame]
    exact Bool.noConfusion
  cases h with
  | unpreviewed hunpreviewed => exact ⟨hunpreviewed.prepares, by simp⟩
  | unchanged hlog =>
    refine ⟨hlog.prepares, ?_⟩
    rintro a ⟨⟩
    rfl
  | rehearsed hlog hchange =>
    rw [List.append_assoc] at hes
    exact absurd hchange (hnochange hlog hes)
  | undecided hlog hchange =>
    rw [List.append_assoc] at hes
    exact absurd hchange (hnochange hlog hes)
  | declined hlog hchange =>
    rw [List.append_assoc] at hes
    exact absurd hchange (hnochange hlog hes)
  | committed hlog hchange =>
    rw [List.append_assoc, List.append_assoc] at hes
    exact absurd hchange (hnochange hlog hes)

/-- A node that was changed has what it should have, and keeps it until something else is committed. -/
theorem ApplyTrace.converged_of_changed (h : ApplyTrace options o es (.ok .changed))
    (hes : env.Evolves s (es ++ rest) s') (hrest : ∀ e ∈ rest, ¬ e.call.Overwrites o.host) :
    Converged applied config o.host s' := by
  rcases h.commit_cases with ⟨-, hr⟩ |
    ⟨client, data, reply, log, approval, es', r', hlog, -, -, hcommit, rfl, hr⟩
  · exact absurd rfl hr
  cases r' with
  | error => cases hr
  | ok reply' =>
    obtain ⟨t, t', rfl⟩ := hcommit.ok_cases
    have hsplit : log ++ approval ++
        exchange (.request client (.applyConfiguration data false)) t t' (.ok reply') ++ rest =
        (log ++ approval ++ [.sent t (.request client (.applyConfiguration data false))]) ++
          .answered t' (.request client (.applyConfiguration data false)) (.ok reply') :: rest := by
      simp [exchange]
    rw [hsplit] at hes
    obtain ⟨front, t₀, s₀, s₁, -, -, hresponse, hlater⟩ := hes.split_answered
    have hhost : client.node.host = o.host := by
      obtain ⟨-, hclient⟩ := hlog
      exact congrArg Node.host hclient
    have hstored := hstores.stored _ _ _ _ _ _ hresponse
    rw [hhost, hconfig data hlog.config_eq] at hstored
    exact ((hstores.kept o.host).evolves hlater hrest).trans hstored

/-- A turn that was not skipped leaves its node converged, unless it is a rehearsal. -/
theorem ApplyTrace.converged {a : ApplyOutcome} (h : ApplyTrace options o es (.ok a))
    (hdry : options.dryRun = false) (hskipped : a ≠ .skipped) (hes : env.Evolves s (es ++ rest) s')
    (hrest : ∀ e ∈ rest, ¬ e.call.Overwrites o.host) : Converged applied config o.host s' := by
  cases a with
  | skipped => exact absurd rfl hskipped
  | changed => exact h.converged_of_changed hstores hconfig hes hrest
  | unchanged =>
    generalize hr : (.ok .unchanged : Except Stop ApplyOutcome) = r at h
    cases h with
    | unpreviewed => cases hr
    | rehearsed _ _ hyes => cases hyes.symm.trans hdry
    | undecided => cases hr
    | declined => cases hr
    | @committed _ _ _ _ _ _ r => cases r <;> cases hr
    | unchanged hlog hnone =>
      have hsame : applied o.host s = some _ := (hlog.isNoOp_iff hstores hes).1 hnone
      rw [hconfig _ hlog.config_eq] at hsame
      refine ((hstores.kept o.host).evolves hes ?_).trans hsame
      exact List.forall_mem_append.2 ⟨fun e he => (hlog.prepares e he).not_overwrites, hrest⟩

end

/-! ## Turns -/

variable {S : Setting σ} {options : ApplyOptions} {stabilize : Bool} {o : Observation} {w w' : World σ}
  {r : Except Stop ApplyOutcome} {es : List Entry} {host : String}

theorem InTurn.not_overwrites {node : Node} {c : Call} (h : InTurn node c) (hhost : node.host ≠ host) :
    ¬ c.Overwrites host := by
  rintro ⟨client, rfl, ⟨data, rfl⟩ | ⟨q, rfl⟩⟩ <;> rcases h with h | h
  · exact hhost (congrArg Node.host (Option.some.inj h)).symm
  · cases h
  · exact hhost (congrArg Node.host (Option.some.inj h)).symm
  · cases h

theorem Watches.not_overwrites {node : Node} {c : Call} (h : Watches node c) : ¬ c.Overwrites host := by
  rintro ⟨client, -, ⟨data, rfl⟩ | ⟨q, rfl⟩⟩ <;> rcases h with h | ⟨client', -, h | h⟩ <;> cases h

section

variable {applied : String → σ → Option Bytes} {config : String → Bytes} (hlimit : S.limit = none)
  (hstores : S.environment.Stores applied) (h : applyTurns S options stabilize o w r w')

include hlimit hstores h

theorem applied_eq_of_turn (hhost : o.host ≠ host) : applied host w'.state = applied host w.state :=
  h.keeps .applyTurn (extends_of_ends_applyTurn hlimit o w r w' h)
    ((hstores.kept host).mono fun _ hc => hc.not_overwrites hhost)

variable (hconfig : ∀ data, o.config = some data → data = config o.host)

include hconfig

theorem prepares_of_converged (hconverged : Converged applied config o.host w.state)
    (hes : w.Gains w' es) :
    (∀ e ∈ es, Prepares o.node e.call) ∧ (∀ a, r = .ok a → a = .unchanged) ∧
      Converged applied config o.host w'.state := by
  have hevolves := (Work.Accounted.applyTurn _ _ _ _ h).of_gains hes
  have hturn : (∀ e ∈ es, Prepares o.node e.call) ∧ ∀ a, r = .ok a → a = .unchanged := by
    cases Work.watchedTurn_of_ends_applyTurn h with
    | cancelled =>
      obtain rfl := hes.unique (.refl w)
      exact ⟨by simp, by simp⟩
    | settled _ htrace hgains =>
      obtain rfl := hes.unique hgains
      rw [← List.append_nil es] at hevolves
      exact htrace.of_converged hstores hconfig hevolves hconverged
    | @watched piece a v r₁ _ _ htrace hgains _ hwatched hstable =>
      -- Only a changed node is watched, and this one has not changed.
      obtain ⟨rest, hrest, -⟩ := (hstable.extends (.waitStable hlimit)).gains
      obtain rfl := hes.unique (hgains.trans hrest)
      obtain rfl := (htrace.of_converged hstores hconfig hevolves hconverged).2 a rfl
      simp [ApplyOptions.watches] at hwatched
  refine ⟨hturn.1, hturn.2, ?_⟩
  exact ((hstores.kept o.host).evolves hevolves fun e he => (hturn.1 e he).not_overwrites).trans hconverged

theorem converged_of_turn_of_converged (hconverged : Converged applied config host w.state) :
    Converged applied config host w'.state := by
  by_cases hhost : o.host = host
  · subst hhost
    obtain ⟨es, hes, -⟩ := (extends_of_ends_applyTurn hlimit o w r w' h).gains
    exact (prepares_of_converged hlimit hstores h hconfig hconverged hes).2.2
  · exact (applied_eq_of_turn hlimit hstores h hhost).trans hconverged

theorem converged_of_accepted (hes : w.Gains w' es) (haccepted : CommitAccepted es host) :
    Converged applied config host w'.state := by
  obtain ⟨t, client, data, reply, rfl, hmem⟩ := haccepted
  have hextends := extends_of_ends_applyTurn hlimit o w r w' h
  have hnode : client.node = o.node := by
    rcases (hextends.forall_mem hes _ hmem).1 with hnode | hnode
    · exact Option.some.inj hnode
    · cases hnode
  obtain ⟨piece, watch, hgains, hwatch, hcases⟩ :=
    (Work.watchedTurn_of_ends_applyTurn h).parts hlimit
  obtain rfl := hes.unique hgains
  have hpiece : .answered t (.request client (.applyConfiguration data false)) (.ok reply) ∈ piece := by
    rcases List.mem_append.1 hmem with hmem | hmem
    · exact hmem
    · exact absurd ⟨client, data, rfl⟩ (hwatch _ hmem).not_commits
  rcases hcases with ⟨rfl, -, -⟩ | ⟨r₁, htrace, -, -⟩
  · simp at hpiece
  · obtain rfl := htrace.changed_of_accepted hpiece
    rw [hnode]
    exact htrace.converged_of_changed hstores hconfig ((Work.Accounted.applyTurn _ _ _ _ h).of_gains hes)
      fun e he => (hwatch e he).not_overwrites

theorem converged_of_turn (hdry : options.dryRun = false) {a : ApplyOutcome} (ha : r = .ok a)
    (hskipped : a ≠ .skipped) : Converged applied config o.host w'.state := by
  subst ha
  obtain ⟨piece, watch, hgains, hwatch, ⟨-, -, hr⟩ | ⟨r₁, htrace, hok, -⟩⟩ :=
    (Work.watchedTurn_of_ends_applyTurn h).parts hlimit
  · cases hr
  obtain rfl := hok a rfl
  exact htrace.converged hstores hconfig hdry hskipped
    ((Work.Accounted.applyTurn _ _ _ _ h).of_gains hgains) fun e he => (hwatch e he).not_overwrites

end
end Rollout
