import Rollout.Proofs.Apply.Evolution
import Rollout.Proofs.Cancellation.Courses
import Rollout.Proofs.Reset.Accounting

/-!
# Lines

Past its gathering a run has one connection at a time: a turn, and each attempt of a retry, makes its own and
sends all its requests over it (`OnLine`). So the connection a request goes over is the one made last, and
the journal up to there tells in which state of the world it was made.
-/

namespace Rollout

/-- A call that leaves the client its connection: over the connection, or to the operator. -/
def Call.Over (client : Client) : Call → Prop
  | request other _ => other = client
  | display _ => True
  | ask _ => True
  | connect _ => False
  | render _ => False

/-- A call that goes over no connection. -/
def Call.Bare (c : Call) : Prop := ∀ client q, c ≠ .request client q

/-- Every request goes over the connection made last. -/
def OnLine (es : List Entry) : Prop :=
  ∀ before t client q after, es = before ++ .sent t (.request client q) :: after →
    ∃ front t₀ t₁ mid, before = front ++ (opened client t₀ t₁ ++ mid) ∧ ∀ e ∈ mid, e.call.Over client

namespace OnLine

variable {es es' : List Entry} {client : Client} {t t' : Instant}

theorem of_bare (h : ∀ e ∈ es, e.call.Bare) : OnLine es := by
  intro before t client q after hes
  exact absurd rfl (h (.sent t (.request client q)) (by simp [hes]) client q)

theorem append (h : OnLine es) (h' : OnLine es') : OnLine (es ++ es') := by
  intro before t client q after hes
  rcases append_eq_append_cons_cases hes with ⟨mid, hmid, -⟩ | ⟨mid, rfl, hmid⟩
  · exact h before t client q mid hmid
  · obtain ⟨front, t₀, t₁, between, rfl, hbetween⟩ := h' mid t client q after hmid
    exact ⟨es ++ front, t₀, t₁, between, (List.append_assoc ..).symm, hbetween⟩

theorem flatMap {ι : Type} {log : ι → List Entry} {is : List ι} (h : ∀ i ∈ is, OnLine (log i)) :
    OnLine (is.flatMap log) := by
  induction is with
  | nil => exact .of_bare (by simp)
  | cons i is ih =>
    obtain ⟨hi, his⟩ := List.forall_mem_cons.1 h
    exact hi.append (ih his)

theorem opened (h : ∀ e ∈ es, e.call.Over client) : OnLine (opened client t t' ++ es) := by
  intro before t₂ other q after hes
  rcases append_eq_append_cons_cases hes with ⟨mid, hmid, -⟩ | ⟨mid, rfl, rfl⟩
  · have hmem : .sent t₂ (.request other q) ∈ Rollout.opened client t t' := by simp [hmid]
    cases call_of_mem_opened hmem
  · obtain ⟨hbetween, hafter⟩ := List.forall_mem_append.1 h
    obtain rfl : other = client := hafter _ List.mem_cons_self
    exact ⟨[], t, t', mid, rfl, hbetween⟩

end OnLine

variable {σ α β : Type}

namespace Work

def HoldsLine (S : Setting σ) (x : Work σ α) : Prop := x.Leaves S fun es _ => OnLine es

namespace HoldsLine

variable {S : Setting σ}

protected theorem pure {a : α} : (pure a : Work σ α).HoldsLine S := Leaves.pure (.of_bare (by simp))

protected theorem fail {e : Error} : (fail e : Work σ α).HoldsLine S := Leaves.fail (.of_bare (by simp))

protected theorem ofExcept {x : Except Error α} : (ofExcept x : Work σ α).HoldsLine S := by
  cases x with
  | ok a => exact .pure
  | error e => exact .fail

protected theorem bind {x : Work σ α} {f : α → Work σ β} (hx : x.HoldsLine S)
    (hf : ∀ a, (f a).HoldsLine S) : (x >>= f).HoldsLine S :=
  Leaves.bind hx (fun _ _ hes => hes) fun _ a hes => (hf a).imp fun _ _ hes' => hes.append hes'

protected theorem of_runs {x : Work σ α} (h : x.Runs S Call.Bare) : x.HoldsLine S := by
  intro w r w' hends
  obtain ⟨es, hgains, hall⟩ := (hends.extends h).gains
  exact ⟨es, hgains, .of_bare fun e he => (hall e he).1⟩

protected theorem connect_bind {node : Node} {f : Except Error Client → Work σ β}
    (herror : ∀ e, (f (.error e)).HoldsLine S)
    (hok : ∀ client, (f (.ok client)).Runs S (Call.Over client)) : (connect node >>= f).HoldsLine S := by
  intro w r w' hends
  have hbare {es : List Entry} (hes : ∀ e ∈ es, e.call = .connect node) : OnLine es :=
    .of_bare fun e he => by rw [hes e he]; exact nofun
  rcases gains_of_ends_connect_bind hends with ⟨e, w₁, hgains, hrest⟩ |
    ⟨client, w₁, rfl, hgains, hrest⟩ | ⟨hgains, -⟩
  · obtain ⟨es, hes, hline⟩ := herror e _ _ _ hrest
    exact ⟨_, hgains.trans hes, (hbare fun e he => call_of_mem_exchange he).append hline⟩
  · obtain ⟨es, hes, hall⟩ := (hrest.extends (hok client)).gains
    exact ⟨_, hgains.trans hes, .opened fun e he => (hall e he).1⟩
  · exact ⟨_, hgains, hbare (by simp [Entry.call])⟩

protected theorem connected_bind {node : Node} {f : Client → Work σ β}
    (hok : ∀ client, (f client).Runs S (Call.Over client)) : (connected node >>= f).HoldsLine S := by
  unfold connected
  rw [bind_assoc]
  refine .connect_bind (fun e => ?_) fun client => ?_
  · have hfail : (ofExcept (.error e) >>= f) = fail e := rfl
    rw [hfail]
    exact .fail
  · have hgo : (ofExcept (.ok client) >>= f) = f client := pure_bind client f
    rw [hgo]
    exact hok client

variable {o : Observation} {client : Client}

/-! ### What is done over one connection -/

protected theorem configOf : (configOf o : Work σ _).HoldsLine S := .of_runs .configOf

protected theorem applyNode {options : ApplyOptions} : (applyNode o options : Work σ _).HoldsLine S := by
  refine .bind .configOf fun config => .connected_bind fun client => ?_
  refine .bind (.sendConfig rfl) fun preview => ?_
  split
  · exact .pure _
  split
  · exact .bind (.display trivial) fun _ => .pure _
  refine .bind (.approved fun c hc => ?_) fun yes => ?_
  · cases c <;> trivial
  split
  · exact .bind (.sendConfig rfl) fun _ => .pure _
  · exact .pure _

protected theorem requestUpgrade {options : UpgradeOptions} {image : String} :
    (requestUpgrade o options image : Work σ _).HoldsLine S := by
  refine .connected_bind fun client => .bind (.bind (.request rfl) fun answer => ?_) fun _ => .pure _
  cases answer with
  | ok reply => exact .pure _
  | error e => exact .fail _

protected theorem upgradeCall {options : UpgradeOptions} : (upgradeCall o options : Work σ _).HoldsLine S := by
  refine .bind .ofExcept fun desired => ?_
  dsimp only
  split
  · exact .pure
  split
  · exact .pure
  split
  · refine .bind (.of_runs (.ask nofun)) fun yes => ?_
    split
    · exact .pure
    · exact .requestUpgrade
  · exact .requestUpgrade

protected theorem requestReset {options : ResetOptions} : (requestReset o options : Work σ _).HoldsLine S := by
  refine .connect_bind (fun e => .pure) fun client => .bind (.request rfl) fun answer => ?_
  cases answer <;> exact .pure _

protected theorem resetNode {options : ResetOptions} : (resetNode o options : Work σ _).HoldsLine S := by
  rw [resetNode_eq]
  split
  · exact .pure
  split
  · refine .bind (.of_runs (.ask nofun)) fun yes => ?_
    split
    · exact .requestReset
    · exact .pure
  · exact .requestReset

protected theorem stableAttempt {node : Node} {window : Duration} :
    (stableAttempt node window : Work σ _).HoldsLine S := by
  refine .connect_bind (fun e => .pure) fun client => .bind (.request rfl) fun subscription => ?_
  cases subscription with
  | error e => exact .pure _
  | ok stream =>
    refine .bind .clock fun subscribed => .bind (.request rfl) fun answer => ?_
    cases answer with
    | error e => exact .pure _
    | ok status =>
      dsimp only
      split
      · exact .pure _
      · exact .watchFor subscribed stream

protected theorem etcdAttempt {seed : Node} : (etcdAttempt seed : Work σ _).HoldsLine S := by
  refine .connect_bind (fun e => .pure) fun client => .bind (.request rfl) fun answer => ?_
  rcases answer with e | _ | state
  · exact .pure _
  · exact .pure _
  dsimp only
  split
  · refine .bind (.request rfl) fun answer => ?_
    cases answer <;> exact .pure _
  split
  · refine .bind (.bind (.request rfl) fun answer => ?_) fun members => ?_
    · cases answer <;> exact .pure _
    · split <;> exact .pure _
  · exact .pure _

/-- An attempt that is cut off is on line as far as it comes. -/
protected theorem attempt {ε : Type} {b : Budget} {work : Work σ (Attempt ε α)}
    (h : ∀ S, work.HoldsLine S) : (b.attempt work).HoldsLine S := by
  intro w r w' hends
  cases hlimit : b.attemptLimit with
  | none => exact h S w r w' ((ends_attempt_iff_of_no_limit hlimit).1 hends)
  | some limit =>
    rcases (ends_attempt_iff_of_limit hlimit).1 hends with ⟨o, hwork, -⟩ | ⟨hwork, -⟩ | ⟨e, hwork, -⟩
    · exact h _ w _ w' hwork
    · exact h _ w _ w' hwork
    · exact h _ w _ w' hwork

end HoldsLine

protected theorem Accounted.upgradeCall {o : Observation} {options : UpgradeOptions} :
    (upgradeCall o options : Work σ _).Accounted := by
  have hrequest (image : String) : (requestUpgrade o options image : Work σ _).Accounted := by
    refine .bind .connected fun client => .bind (.bind .request fun answer => ?_) fun _ => .pure _
    cases answer with
    | ok reply => exact .pure _
    | error e => exact .fail _
  refine .bind (.ofExcept _) fun desired => ?_
  dsimp only
  split
  · exact .pure _
  split
  · exact .pure _
  split
  · refine .bind .ask fun yes => ?_
    split
    · exact .pure _
    · exact hrequest _
  · exact hrequest _

end Work

/-! ## Strides -/

variable {act : Observation → Work σ α} {S : Setting σ} {w w' : World σ} {ss : List (Stride σ)}

theorem Stride.Taken.onLine {s : Stride σ} (h : s.Taken act S) (hact : ∀ o, (act o).HoldsLine S) :
    OnLine s.log := by
  obtain ⟨errand, begun, ended, log⟩ := s
  obtain ⟨-, hdone, hgains⟩ := h
  dsimp only at hdone hgains ⊢
  have hleaves {β : Type} {x : Work σ β} {r : Except Stop β} (hx : x.HoldsLine S)
      (hends : x.Ends S begun r ended) : OnLine log := by
    obtain ⟨es, hes, hline⟩ := hx _ _ _ hends
    rwa [hgains.unique hes]
  cases hdone with
  | turn hends => exact hleaves (hact _) hends
  | watch hends => exact hleaves (.attempt fun _ => .stableAttempt) hends
  | start hends => exact hleaves (.attempt fun _ => .etcdAttempt) hends

theorem Strides.onLine (h : Strides act S w ss w') (hact : ∀ o, (act o).HoldsLine S) :
    OnLine (ss.flatMap Stride.log) :=
  .flatMap fun s hs => (h.forall_taken s hs).onLine hact

/-- The journal of strides tells what becomes of the world. -/
theorem Strides.evolves (h : Strides act S w ss w') (hact : ∀ o, (act o).Accounted) :
    w.Evolves S.environment w' := by
  induction h with
  | nil => exact .of_eq rfl rfl
  | pause _ ih => exact (World.Evolves.of_eq rfl rfl).trans ih
  | @cons s ss w' h _ ih =>
    refine World.Evolves.trans ?_ ih
    obtain ⟨errand, begun, ended, log⟩ := s
    obtain ⟨-, hdone, -⟩ := h
    cases hdone with
    | turn hends => exact hact _ _ _ _ _ hends
    | watch hends => exact Work.Accounted.attempt .stableAttempt _ _ _ _ hends
    | start hends => exact Work.Accounted.attempt .etcdAttempt _ _ _ _ hends

end Rollout
