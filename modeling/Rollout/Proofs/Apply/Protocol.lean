import Rollout.Proofs.Apply.Turn
import Rollout.Proofs.Run.Leaving

/-!
# Two phases

A configuration is previewed first and sent for good later. `ApplyTrace` lists all that the turn of a
node can leave in the journal up to the accepted change, with what it comes to. What stands before a
commit, when a commit was accepted and when the operator said no is read off it.
-/

namespace Rollout

variable {σ : Type} {S : Setting σ}

/-- What asking for approval of a preview leaves in the journal, and what it comes to. -/
inductive Approval (options : ApplyOptions) (host : String) (preview : ApplyReply) :
    List Entry → Except Stop Bool → Prop
  | waived (h : options.confirm = false) : Approval options host preview [] (.ok true)
  | unseen {es stop} (h : options.confirm = true)
      (hes : Demanded (.display preview.details) Empty.elim es (.error stop)) :
      Approval options host preview es (.error stop)
  /-- The operator sees the details of the preview and decides, or cannot be asked. -/
  | asked {t t' es r} (h : options.confirm = true)
      (hes : Demanded (.ask (Work.applyQuestion host preview.mode)) id es r) :
      Approval options host preview (exchange (.display preview.details) t t' (.ok ()) ++ es) r

/-- The entries of a client's connection and its preview of `data`, answered with `reply`. -/
def previewed (client : Client) (data : Bytes) (reply : ApplyReply) (t₀ t₁ t₂ t₃ : Instant) :
    List Entry :=
  opened client t₀ t₁ ++ exchange (.request client (.applyConfiguration data true)) t₂ t₃ (.ok reply)

/-- The node of the record has previewed the record's configuration. -/
inductive Previewed (o : Observation) (client : Client) (data : Bytes) (reply : ApplyReply) :
    List Entry → Prop
  | intro {t₀ t₁ t₂ t₃} (hconfig : o.config = some data) (hclient : client.node = o.node) :
      Previewed o client data reply (previewed client data reply t₀ t₁ t₂ t₃)

/-- There is no configuration, or no preview of it. -/
inductive Unpreviewed (o : Observation) : List Entry → Stop → Prop
  | unrendered (h : o.config = none) :
      Unpreviewed o [] (.error (.render s!"no configuration rendered for {o.host}"))
  | unconnected {es stop} (hes : Connects o.node es (.error stop)) : Unpreviewed o es stop
  | refused {client data t t' es stop} (hclient : client.node = o.node)
      (hes : Demanded (.request client (.applyConfiguration data true)) (.apply client.node.host) es
        (.error stop)) : Unpreviewed o (opened client t t' ++ es) stop

/-- What the turn of a node leaves in the journal up to the accepted change, and what it comes to. -/
inductive ApplyTrace (options : ApplyOptions) (o : Observation) :
    List Entry → Except Stop ApplyOutcome → Prop
  | unpreviewed {es stop} (hes : Unpreviewed o es stop) : ApplyTrace options o es (.error stop)
  | unchanged {client data reply log} (hlog : Previewed o client data reply log)
      (hnone : isNoOp reply.details = true) : ApplyTrace options o log (.ok .unchanged)
  /-- A dry run shows what would change. -/
  | rehearsed {client data reply log es r} (hlog : Previewed o client data reply log)
      (hchange : isNoOp reply.details = false) (hdry : options.dryRun = true)
      (hes : Demanded (.display reply.details) Empty.elim es r) :
      ApplyTrace options o (log ++ es) (r.map fun _ => .unchanged)
  | undecided {client data reply log es stop} (hlog : Previewed o client data reply log)
      (hchange : isNoOp reply.details = false) (hdry : options.dryRun = false)
      (hes : Approval options o.host reply es (.error stop)) :
      ApplyTrace options o (log ++ es) (.error stop)
  | declined {client data reply log es} (hlog : Previewed o client data reply log)
      (hchange : isNoOp reply.details = false) (hdry : options.dryRun = false)
      (hes : Approval options o.host reply es (.ok false)) :
      ApplyTrace options o (log ++ es) (.ok .skipped)
  | committed {client data reply log es es' r} (hlog : Previewed o client data reply log)
      (hchange : isNoOp reply.details = false) (hdry : options.dryRun = false)
      (hes : Approval options o.host reply es (.ok true))
      (hcommit : Demanded (.request client (.applyConfiguration data false))
        (.apply client.node.host) es' r) :
      ApplyTrace options o (log ++ es ++ es') (r.map fun _ => .changed)

namespace Work.Leaves

variable {o : Observation} {options : ApplyOptions}

theorem sendConfig {client : Client} {data : Bytes} {dryRun : Bool} :
    (sendConfig client data dryRun : Work σ _).Leaves S
      (Demanded (.request client (.applyConfiguration data dryRun)) (.apply client.node.host)) :=
  .demand (fun _ => rfl) fun _ => rfl

theorem approved {host : String} {preview : ApplyReply} :
    (approved host preview options : Work σ _).Leaves S (Approval options host preview) := by
  unfold Work.approved
  split
  · next hconfirm =>
    refine .bind (Q := Demanded (.display preview.details) Empty.elim) .display
      (fun es stop hes => .unseen hconfirm hes) fun es a hes => ?_
    rcases hes.ok_cases with ⟨t, t', rfl⟩
    refine .imp .ask fun es' r hask => ?_
    exact .asked hconfirm hask
  · next hconfirm => exact .pure (.waived (by simpa using hconfirm))

theorem applyNode : (applyNode o options : Work σ _).Leaves S (ApplyTrace options o) := by
  unfold Work.applyNode configOf
  cases hconfig : o.config with
  | none => exact .fail (.unpreviewed (.unrendered hconfig))
  | some data =>
    refine .bind (Q := Connects o.node) .connect
      (fun es stop hes => .unpreviewed (.unconnected hes)) fun opening client hopening => ?_
    obtain ⟨t₀, t₁, hclient, rfl⟩ := hopening.ok_cases
    refine .bind .sendConfig (fun es stop hes => .unpreviewed (.refused hclient hes))
      fun es reply hes => ?_
    obtain ⟨t₂, t₃, rfl⟩ := hes.ok_cases
    have hlog : Previewed o client data reply (previewed client data reply t₀ t₁ t₂ t₃) :=
      .intro hconfig hclient
    split
    · next hnone => exact .pure (by simpa using .unchanged hlog hnone)
    next hchange =>
    have hchange : isNoOp reply.details = false := by simpa using hchange
    split
    · next hdry =>
      refine .bind (Q := Demanded (.display reply.details) Empty.elim) .display ?_ ?_
      · intro es stop hes
        rw [← List.append_assoc]
        exact .rehearsed hlog hchange hdry hes
      · intro es a hes
        have htrace : ApplyTrace options o (previewed client data reply t₀ t₁ t₂ t₃ ++ es)
            (.ok .unchanged) := .rehearsed hlog hchange hdry hes
        exact .pure (by simpa [previewed] using htrace)
    next hdry =>
    have hdry : options.dryRun = false := by simpa using hdry
    refine .bind .approved ?_ fun es yes hes => ?_
    · intro es stop hes
      rw [← List.append_assoc]
      exact .undecided hlog hchange hdry hes
    cases yes with
    | false =>
      have htrace := ApplyTrace.declined hlog hchange hdry hes
      exact .pure (by simpa [previewed] using htrace)
    | true =>
      refine .bind .sendConfig ?_ ?_
      · intro es' stop hcommit
        have htrace : ApplyTrace options o (previewed client data reply t₀ t₁ t₂ t₃ ++ es ++ es')
            (.error stop) := .committed hlog hchange hdry hes hcommit
        simpa [previewed] using htrace
      · intro es' reply' hcommit
        have htrace : ApplyTrace options o (previewed client data reply t₀ t₁ t₂ t₃ ++ es ++ es')
            (.ok .changed) := .committed hlog hchange hdry hes hcommit
        exact .pure (by simpa [previewed] using htrace)

end Work.Leaves

/-! ## The calls of each phase -/

/-- A call of the first phase: the node is connected to and asked for a preview. -/
def Prepares (node : Node) (c : Call) : Prop :=
  c = .connect node ∨
    ∃ client data, client.node = node ∧ c = .request client (.applyConfiguration data true)

theorem Prepares.node?_eq {node : Node} {c : Call} (h : Prepares node c) : c.node? = some node := by
  rcases h with rfl | ⟨client, data, rfl, rfl⟩ <;> rfl

theorem Prepares.not_commits {node : Node} {c : Call} (h : Prepares node c) : ¬ c.Commits := by
  rintro ⟨client, data, rfl⟩
  rcases h with h | ⟨client', data', -, h⟩ <;> cases h

theorem Call.not_commits_of_operator {c : Call} (h : c.node? = none) : ¬ c.Commits := by
  rintro ⟨client, data, rfl⟩
  cases h

variable {options : ApplyOptions} {o : Observation} {client : Client} {data : Bytes}
  {reply preview : ApplyReply} {host : String} {es log : List Entry} {r : Except Stop ApplyOutcome}

theorem Previewed.prepares (h : Previewed o client data reply log) :
    ∀ e ∈ log, Prepares o.node e.call := by
  obtain ⟨-, hclient⟩ := h
  intro e he
  rcases List.mem_append.1 he with he | he
  · exact .inl (hclient ▸ call_of_mem_opened he)
  · exact .inr ⟨client, data, hclient, call_of_mem_exchange he⟩

theorem Unpreviewed.prepares {stop : Stop} (h : Unpreviewed o es stop) :
    ∀ e ∈ es, Prepares o.node e.call := by
  intro e he
  cases h with
  | unrendered => simp at he
  | unconnected hes => exact .inl (hes.call_of_mem e he)
  | @refused client data t t' es _ hclient hes =>
    rcases List.mem_append.1 he with he | he
    · exact .inl (hclient ▸ call_of_mem_opened he)
    · exact .inr ⟨client, data, hclient, hes.call_of_mem e he⟩

namespace Approval

theorem ok_cases {yes : Bool} (h : Approval options host preview es (.ok yes)) :
    (options.confirm = false ∧ es = [] ∧ yes = true) ∨
      options.confirm = true ∧ ∃ t₀ t₁ t₂ t₃, es = exchange (.display preview.details) t₀ t₁ (.ok ()) ++
        exchange (.ask (Work.applyQuestion host preview.mode)) t₂ t₃ (.ok yes) := by
  generalize hr : (.ok yes : Except Stop Bool) = r at h
  cases h with
  | waived hconfirm =>
    cases hr
    exact .inl ⟨hconfirm, rfl, rfl⟩
  | unseen => cases hr
  | asked hconfirm hes =>
    subst hr
    obtain ⟨t₂, t₃, rfl⟩ := hes.ok_cases
    exact .inr ⟨hconfirm, _, _, t₂, t₃, rfl⟩

theorem node?_of_mem {r : Except Stop Bool} (h : Approval options host preview es r) :
    ∀ e ∈ es, e.call.node? = none := by
  intro e he
  cases h with
  | waived => simp at he
  | unseen _ hes =>
    rw [hes.call_of_mem e he]
    rfl
  | asked _ hes =>
    rcases List.mem_append.1 he with he | he
    · rw [call_of_mem_exchange he]
      rfl
    · rw [hes.call_of_mem e he]
      rfl

/-- A no in answer to a question is what asking for approval comes to. -/
theorem eq_of_mem_no {r : Except Stop Bool} {t : Instant} {question : String}
    (h : Approval options host preview es r) (he : .answered t (.ask question) (.ok false) ∈ es) :
    r = .ok false := by
  cases h with
  | waived => simp at he
  | unseen _ hes => cases hes.call_of_mem _ he
  | asked _ hes =>
    rcases List.mem_append.1 he with he | he
    · cases call_of_mem_exchange he
    · cases hes.call_of_mem _ he
      exact hes.eq_of_mem_answered he

end Approval

/-! ## Reading a trace -/

theorem isNoOp_eq_false_iff {details : String} :
    isNoOp details = false ↔ ¬ noChanges.toList <:+ details.toList := by
  unfold isNoOp
  rw [← Bool.not_eq_true, List.isSuffixOf_iff_suffix]

namespace ApplyTrace

/-- A trace has no commit, or ends with one that was previewed and approved. -/
theorem commit_cases (h : ApplyTrace options o es r) :
    ((∀ e ∈ es, ¬ e.call.Commits) ∧ r ≠ .ok .changed) ∨
      ∃ client data reply log approval es' r', Previewed o client data reply log ∧
        isNoOp reply.details = false ∧ Approval options o.host reply approval (.ok true) ∧
        Demanded (.request client (.applyConfiguration data false)) (.apply client.node.host) es' r' ∧
        es = log ++ approval ++ es' ∧ r = r'.map fun _ => .changed := by
  have hlater {log es : List Entry} {client : Client} {data : Bytes} {reply : ApplyReply}
      (hlog : Previewed o client data reply log) (hes : ∀ e ∈ es, e.call.node? = none) :
      ∀ e ∈ log ++ es, ¬ e.call.Commits :=
    List.forall_mem_append.2 ⟨fun e he => (hlog.prepares e he).not_commits,
      fun e he => Call.not_commits_of_operator (hes e he)⟩
  cases h with
  | unpreviewed hes => exact .inl ⟨fun e he => (hes.prepares e he).not_commits, by simp⟩
  | unchanged hlog => exact .inl ⟨fun e he => (hlog.prepares e he).not_commits, by simp⟩
  | @rehearsed _ _ _ _ _ r₁ hlog _ _ hes =>
    refine .inl ⟨hlater hlog fun e he => by rw [hes.call_of_mem e he]; rfl, ?_⟩
    intro hr
    cases r₁ <;> cases hr
  | undecided hlog _ _ hes => exact .inl ⟨hlater hlog hes.node?_of_mem, by simp⟩
  | declined hlog _ _ hes => exact .inl ⟨hlater hlog hes.node?_of_mem, by simp⟩
  | committed hlog hchange _ hes hcommit =>
    exact .inr ⟨_, _, _, _, _, _, _, hlog, hchange, hes, hcommit, rfl, rfl⟩

/-- The outcome tells whether a commit was accepted: one was, or none. -/
theorem accepted_cases (h : ApplyTrace options o es r) :
    (r = .ok .changed ∧ ∃ t, commits es = [t]) ∨ (r ≠ .ok .changed ∧ commits es = []) := by
  rcases h.commit_cases with ⟨hnone, hr⟩ |
    ⟨client, data, reply, log, approval, es', r', hlog, -, happroval, hcommit, rfl, rfl⟩
  · exact .inr ⟨hr, commits_eq_nil hnone⟩
  · have hfirst : commits (log ++ approval) = [] :=
      commits_eq_nil (List.forall_mem_append.2 ⟨fun e he => (hlog.prepares e he).not_commits,
        fun e he => Call.not_commits_of_operator (happroval.node?_of_mem e he)⟩)
    rw [commits_append, hfirst, List.nil_append]
    cases hcommit with
    | silent => exact .inr ⟨by simp [Except.map], rfl⟩
    | refused => exact .inr ⟨by simp [Except.map], rfl⟩
    | @answered t t' a => exact .inl ⟨rfl, t', rfl⟩

/-- The operator said no to nothing, or to the preview that the trace consists of. -/
theorem no_cases (h : ApplyTrace options o es r) :
    ((∀ t question, .answered t (.ask question) (.ok false) ∉ es) ∧ r ≠ .ok .skipped) ∨
      ∃ client data reply log t₀ t₁ t₂ t₃, Previewed o client data reply log ∧
        es = log ++ exchange (.display reply.details) t₀ t₁ (.ok ()) ++
          exchange (.ask (Work.applyQuestion o.host reply.mode)) t₂ t₃ (.ok false) ∧
        r = .ok .skipped := by
  have hfirst {es : List Entry} (hes : ∀ e ∈ es, Prepares o.node e.call) (t : Instant)
      (question : String) : .answered t (.ask question) (.ok false) ∉ es := by
    intro he
    cases (hes _ he).node?_eq
  cases h with
  | unpreviewed hes => exact .inl ⟨hfirst hes.prepares, by simp⟩
  | unchanged hlog => exact .inl ⟨hfirst hlog.prepares, by simp⟩
  | @rehearsed _ _ _ _ _ r₁ hlog _ _ hes =>
    refine .inl ⟨fun t question he => ?_, ?_⟩
    · rcases List.mem_append.1 he with he | he
      · exact hfirst hlog.prepares t question he
      · cases hes.call_of_mem _ he
    · intro hr
      cases r₁ <;> cases hr
  | undecided hlog _ _ hes =>
    refine .inl ⟨fun t question he => ?_, by simp⟩
    rcases List.mem_append.1 he with he | he
    · exact hfirst hlog.prepares t question he
    · cases hes.eq_of_mem_no he
  | declined hlog _ _ hes =>
    rcases hes.ok_cases with ⟨-, -, hyes⟩ | ⟨-, t₀, t₁, t₂, t₃, rfl⟩
    · cases hyes
    · exact .inr ⟨_, _, _, _, t₀, t₁, t₂, t₃, hlog, (List.append_assoc ..).symm, rfl⟩
  | @committed _ _ _ _ _ _ r₁ hlog _ _ hes hcommit =>
    refine .inl ⟨fun t question he => ?_, ?_⟩
    · rcases List.mem_append.1 he with he | he
      · rcases List.mem_append.1 he with he | he
        · exact hfirst hlog.prepares t question he
        · cases hes.eq_of_mem_no he
      · cases hcommit.call_of_mem _ he
    · intro hr
      cases r₁ <;> cases hr

end ApplyTrace

/-! ## Counting -/

/-- Is a configuration sent to the host here, as a preview or for good? -/
def Entry.sends (dryRun : Bool) (host : String) : Entry → Bool
  | sent _ (.request client (.applyConfiguration _ d)) => d == dryRun && client.node.host == host
  | _ => false

theorem Entry.call_of_sends {dryRun : Bool} {e : Entry} (h : e.sends dryRun host = true) :
    ∃ client data, client.node.host = host ∧
      e.call = .request client (.applyConfiguration data dryRun) := by
  unfold sends at h
  split at h
  · next client data d =>
    obtain ⟨hd, hclient⟩ := Bool.and_eq_true_iff.1 h
    obtain rfl := eq_of_beq hd
    exact ⟨client, data, eq_of_beq hclient, rfl⟩
  · cases h

theorem countP_sends_eq_zero {dryRun : Bool}
    (h : ∀ e ∈ es, ∀ client data, e.call ≠ .request client (.applyConfiguration data dryRun)) :
    es.countP (Entry.sends dryRun host) = 0 := by
  refine List.countP_eq_zero.2 fun e he hsends => ?_
  obtain ⟨client, data, -, hcall⟩ := Entry.call_of_sends hsends
  exact h e he client data hcall

theorem countP_sends_opened {dryRun : Bool} {t t' : Instant} :
    (opened client t t').countP (Entry.sends dryRun host) = 0 := by
  refine countP_sends_eq_zero fun e he client' data hcall => ?_
  cases (call_of_mem_opened he).symm.trans hcall

theorem countP_sends_of_operator {dryRun : Bool} (h : ∀ e ∈ es, e.call.node? = none) :
    es.countP (Entry.sends dryRun host) = 0 := by
  refine countP_sends_eq_zero fun e he client data hcall => ?_
  cases (h e he).symm.trans (congrArg Call.node? hcall)

theorem countP_commits_eq_zero (h : ∀ e ∈ es, ¬ e.call.Commits) :
    es.countP (Entry.sends false host) = 0 :=
  countP_sends_eq_zero fun e he client data hcall => h e he ⟨client, data, hcall⟩

theorem Previewed.countP_le_one (h : Previewed o client data reply log) :
    log.countP (Entry.sends true host) ≤ 1 := by
  cases h with
  | intro =>
    rw [previewed, List.countP_append, countP_sends_opened, Nat.zero_add]
    exact countP_exchange_le_one rfl

theorem Unpreviewed.countP_le_one {stop : Stop} (h : Unpreviewed o es stop) :
    es.countP (Entry.sends true host) ≤ 1 := by
  cases h with
  | unrendered => simp
  | unconnected hes =>
    rw [countP_sends_eq_zero fun e he client data hcall => ?_]
    · exact Nat.zero_le 1
    · cases (hes.call_of_mem e he).symm.trans hcall
  | refused _ hes =>
    rw [List.countP_append, countP_sends_opened, Nat.zero_add]
    exact hes.countP_le_one fun _ _ => rfl

namespace ApplyTrace

theorem previews_le_one (h : ApplyTrace options o es r) : es.countP (Entry.sends true host) ≤ 1 := by
  have hlater {log es : List Entry} {client : Client} {data : Bytes} {reply : ApplyReply}
      (hlog : Previewed o client data reply log) (hes : es.countP (Entry.sends true host) = 0) :
      (log ++ es).countP (Entry.sends true host) ≤ 1 := by
    rw [List.countP_append, hes]
    exact hlog.countP_le_one
  cases h with
  | unpreviewed hes => exact hes.countP_le_one
  | unchanged hlog => exact hlog.countP_le_one
  | rehearsed hlog _ _ hes =>
    refine hlater hlog (countP_sends_of_operator fun e he => ?_)
    rw [hes.call_of_mem e he]
    rfl
  | undecided hlog _ _ hes => exact hlater hlog (countP_sends_of_operator hes.node?_of_mem)
  | declined hlog _ _ hes => exact hlater hlog (countP_sends_of_operator hes.node?_of_mem)
  | committed hlog _ _ hes hcommit =>
    rw [List.append_assoc]
    refine hlater hlog ?_
    rw [List.countP_append, countP_sends_of_operator hes.node?_of_mem, Nat.zero_add]
    refine countP_sends_eq_zero fun e he client data hcall => ?_
    cases (hcommit.call_of_mem e he).symm.trans hcall

theorem commits_le_one (h : ApplyTrace options o es r) :
    es.countP (Entry.sends false host) ≤ 1 := by
  rcases h.commit_cases with ⟨hnone, -⟩ |
    ⟨client, data, reply, log, approval, es', r', hlog, -, happroval, hcommit, rfl, -⟩
  · rw [countP_commits_eq_zero hnone]
    exact Nat.zero_le 1
  · have hlater : ∀ e ∈ log ++ approval, ¬ e.call.Commits :=
      List.forall_mem_append.2 ⟨fun e he => (hlog.prepares e he).not_commits,
        fun e he => Call.not_commits_of_operator (happroval.node?_of_mem e he)⟩
    rw [List.countP_append, countP_commits_eq_zero hlater, Nat.zero_add]
    exact hcommit.countP_le_one fun _ _ => rfl

end ApplyTrace
end Rollout
