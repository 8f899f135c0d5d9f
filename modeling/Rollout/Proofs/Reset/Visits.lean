import Rollout.Proofs.Reset.Protocol

/-!
# The visits of a reset run

A turn that is over is a `ResetVisit`: the node's record, what the turn left in the journal and what it is
counted as. The questions about different hosts differ, so with distinct hosts everything that is called
about a node stands in its own visit, and the journal of all visits says of a node what its visit says.
-/

namespace Rollout

variable {σ : Type} {options : ResetOptions} {o o' : Observation} {es : List Entry} {a : ResetOutcome}
  {host : String}

/-! ## What the journal says about resets -/

namespace Entry

def resets (host : String) : Entry → Bool
  | .sent _ (.request client (.reset _)) => client.node.host == host
  | _ => false

def acceptsReset (host : String) : Entry → Bool
  | .answered _ (.request client (.reset _)) (.ok _) => client.node.host == host
  | _ => false

def rejectsReset (host : String) : Entry → Bool
  | .answered _ (.request client (.reset _)) (.error _) => client.node.host == host
  | _ => false

end Entry

/-- A call to the host, or the question whether to reset it. -/
def Call.About (host : String) (c : Call) : Prop :=
  (∃ node, c.node? = some node ∧ node.host = host) ∨ c = .ask (Work.resetQuestion host)

theorem Entry.about_of_resets {e : Entry} (h : e.resets host = true) : e.call.About host := by
  unfold resets at h
  split at h
  · exact .inl ⟨_, rfl, by simpa using h⟩
  · cases h

theorem Entry.about_of_acceptsReset {e : Entry} (h : e.acceptsReset host = true) :
    e.call.About host := by
  unfold acceptsReset at h
  split at h
  · exact .inl ⟨_, rfl, by simpa using h⟩
  · cases h

theorem Entry.about_of_rejectsReset {e : Entry} (h : e.rejectsReset host = true) :
    e.call.About host := by
  unfold rejectsReset at h
  split at h
  · exact .inl ⟨_, rfl, by simpa using h⟩
  · cases h

theorem Work.resetQuestion_injective : Function.Injective Work.resetQuestion := by
  intro host host' h
  unfold resetQuestion at h
  exact (String.append_right_inj _).1 ((String.append_left_inj _).1 h)

theorem ResetCalls.host_eq {c : Call} (h : ResetCalls o c) (habout : c.About host) :
    o.host = host := by
  rcases h with h | rfl
  · rcases habout with ⟨node, hnode, rfl⟩ | rfl
    · exact congrArg Node.host (Option.some.inj (h.symm.trans hnode))
    · cases h
  · rcases habout with ⟨node, hnode, -⟩ | hquestion
    · cases hnode
    · exact Work.resetQuestion_injective (Call.ask.inj hquestion)

/-! ## The traces -/

namespace ResetLeave

theorem calls (h : ResetLeave options o.host es) : ∀ e ∈ es, e.call = .ask (Work.resetQuestion o.host) := by
  cases h with
  | waived => simp
  | given => exact fun e he => call_of_mem_exchange he

end ResetLeave

namespace ResetTrace

theorem calls (h : ResetTrace options o es a) : ∀ e ∈ es, ResetCalls o e.call := by
  intro e he
  cases h with
  | bare => simp at he
  | declined => exact .inr (call_of_mem_exchange he)
  | unreached _ hleave =>
    rcases List.mem_append.1 he with he | he
    · exact .inr (hleave.calls e he)
    · exact .inl (congrArg Call.node? (call_of_mem_exchange he))
  | called _ hleave hclient =>
    rcases List.mem_append.1 he with he | he
    · rcases List.mem_append.1 he with he | he
      · exact .inr (hleave.calls e he)
      · exact .inl ((congrArg Call.node? (call_of_mem_opened he)).trans (congrArg some hclient))
    · exact .inl ((congrArg Call.node? (call_of_mem_exchange he)).trans (congrArg some hclient))

theorem any_acceptsReset (h : ResetTrace options o es a) :
    es.any (Entry.acceptsReset o.host) = (a == .success) := by
  cases h with
  | bare => rfl
  | declined => rfl
  | unreached _ hleave => cases hleave <;> rfl
  | @called leave client t₀ t₁ t₂ t₃ a _ hleave hclient =>
    have hhost : client.node.host = o.host := congrArg Node.host hclient
    cases hleave <;> rcases a with e | ⟨⟩ <;>
      simp [exchange, opened, Entry.acceptsReset, hhost, ResetOutcome.ofAnswer]

theorem any_rejectsReset (h : ResetTrace options o es a) :
    es.any (Entry.rejectsReset o.host) = (a == .failed) := by
  cases h with
  | bare => rfl
  | declined => rfl
  | unreached _ hleave => cases hleave <;> rfl
  | @called leave client t₀ t₁ t₂ t₃ a _ hleave hclient =>
    have hhost : client.node.host = o.host := congrArg Node.host hclient
    cases hleave <;> rcases a with e | ⟨⟩ <;>
      simp [exchange, opened, Entry.rejectsReset, hhost, ResetOutcome.ofAnswer]

theorem countP_resets_le_one (h : ResetTrace options o es a) : es.countP (Entry.resets o.host) ≤ 1 := by
  cases h with
  | bare => exact Nat.zero_le _
  | declined => exact Nat.zero_le _
  | unreached _ hleave => cases hleave <;> exact Nat.zero_le _
  | called _ hleave hclient =>
    cases hleave <;> exact countP_exchange_le_one rfl

/-- A reset is sent if the node has something to reset, the operator gives leave and there is a
connection. -/
theorem exists_resets_iff (h : ResetTrace options o es a) :
    (∃ e ∈ es, e.resets o.host = true) ↔ o.stage ≠ .maintenance ∧
      (options.confirm = true → ∃ t, .answered t (.ask (Work.resetQuestion o.host)) (.ok true) ∈ es) ∧
      ∃ t channel, .answered t (.connect o.node) (.ok channel) ∈ es := by
  cases h with
  | bare hstage => simp [hstage]
  | declined _ hconfirm => simp [exchange, Entry.resets, hconfirm]
  | unreached _ hleave => cases hleave <;> simp [exchange, Entry.resets]
  | @called leave client t₀ t₁ t₂ t₃ a hstage hleave hclient =>
    have hhost : client.node.host = o.host := congrArg Node.host hclient
    have hopened : ∃ t channel,
        .answered t (.connect o.node) (.ok channel) ∈ leave ++ opened client t₀ t₁ ++
          exchange (.request client (.reset options.request)) t₂ t₃ a :=
      ⟨t₁, client.channel, by simp [opened, exchange, hclient]⟩
    have hsent : ∃ e ∈ leave ++ opened client t₀ t₁ ++
        exchange (.request client (.reset options.request)) t₂ t₃ a, e.resets o.host = true :=
      ⟨.sent t₂ (.request client (.reset options.request)), by simp [exchange], beq_iff_eq.2 hhost⟩
    refine iff_of_true hsent ⟨hstage, fun hconfirm => ?_, hopened⟩
    cases hleave with
    | waived hwaived => cases hwaived.symm.trans hconfirm
    | @given t t' => exact ⟨t', by simp [exchange]⟩

theorem eq_request (h : ResetTrace options o es a) {t : Instant} {client : Client} {q : ResetRequest}
    (hsent : .sent t (.request client (.reset q)) ∈ es) : q = options.request := by
  cases h with
  | bare => simp at hsent
  | declined => simp [exchange] at hsent
  | unreached _ hleave => cases hleave <;> simp [exchange] at hsent
  | called _ hleave =>
    cases hleave <;> simp [opened, exchange] at hsent <;> exact hsent.2.2

end ResetTrace

/-! ## The visits -/

/-- A turn that is over. -/
structure ResetVisit (options : ResetOptions) where
  record : Observation
  log : List Entry
  outcome : ResetOutcome
  trace : ResetTrace options record log outcome

namespace ResetVisit

variable {visits : List (ResetVisit options)} {v : ResetVisit options}

/-- With distinct hosts, nothing outside the visit of a host is about it. -/
theorem log_split (hhosts : (visits.map (·.record.host)).Nodup) (hv : v ∈ visits) :
    ∃ before after, visits.flatMap log = before ++ v.log ++ after ∧
      ∀ e ∈ before ++ after, ¬ e.call.About v.record.host := by
  obtain ⟨earlier, later, rfl⟩ := List.append_of_mem hv
  refine ⟨earlier.flatMap log, later.flatMap log, by simp, fun e he habout => ?_⟩
  have hother := ne_of_nodup_middle hhosts
  obtain ⟨u, hu, heu⟩ : ∃ u ∈ earlier ++ later, e ∈ u.log := by
    rw [← List.flatMap_append] at he
    exact List.mem_flatMap.1 he
  exact hother u hu ((u.trace.calls e heu).host_eq habout)

section

variable (hhosts : (visits.map (·.record.host)).Nodup) (hv : v ∈ visits)

include hhosts hv

theorem countP_log {p : Entry → Bool} (hp : ∀ e, p e = true → e.call.About v.record.host) :
    (visits.flatMap log).countP p = v.log.countP p := by
  obtain ⟨before, after, hsplit, hother⟩ := log_split hhosts hv
  have hnone : (before ++ after).countP p = 0 :=
    List.countP_eq_zero.2 fun e he hpe => hother e he (hp e hpe)
  rw [List.countP_append] at hnone
  rw [hsplit, List.countP_append, List.countP_append]
  omega

theorem any_log {p : Entry → Bool} (hp : ∀ e, p e = true → e.call.About v.record.host) :
    (visits.flatMap log).any p = v.log.any p := by
  have hcount := countP_log hhosts hv hp
  rw [Bool.eq_iff_iff, List.any_eq_true, List.any_eq_true, ← List.countP_pos_iff, hcount,
    List.countP_pos_iff]

theorem mem_log_iff {e : Entry} (he : e.call.About v.record.host) :
    e ∈ visits.flatMap log ↔ e ∈ v.log := by
  obtain ⟨before, after, hsplit, hother⟩ := log_split hhosts hv
  have hnot : e ∉ before ++ after := fun hmem => hother e hmem he
  rw [hsplit]
  simp only [List.mem_append, not_or] at hnot ⊢
  tauto

theorem any_acceptsReset :
    (visits.flatMap log).any (Entry.acceptsReset v.record.host) = (v.outcome == .success) :=
  (any_log hhosts hv fun _ => Entry.about_of_acceptsReset).trans v.trace.any_acceptsReset

theorem any_rejectsReset :
    (visits.flatMap log).any (Entry.rejectsReset v.record.host) = (v.outcome == .failed) :=
  (any_log hhosts hv fun _ => Entry.about_of_rejectsReset).trans v.trace.any_rejectsReset

end

end ResetVisit
end Rollout
