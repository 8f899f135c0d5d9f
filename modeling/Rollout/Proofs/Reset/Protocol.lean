import Rollout.Proofs.Gather.Steps
import Rollout.Proofs.Reset.Course
import Rollout.Proofs.Run.Leaving

/-!
# The turn of a node that is to be reset

`ResetTrace` lists all that a turn can leave in the journal when it is over, with the outcome it is
counted as. Where every call is answered and every question can be asked no turn fails, so a reset run
comes to a tally (`Work.Succeeds`).
-/

namespace Rollout

variable {σ α β : Type}

/-- The operator's leave to reset a node, if it is asked for. -/
inductive ResetLeave (options : ResetOptions) (host : String) : List Entry → Prop
  | waived (h : options.confirm = false) : ResetLeave options host []
  | given {t t'} (h : options.confirm = true) :
      ResetLeave options host (exchange (.ask (Work.resetQuestion host)) t t' (.ok true))

def ResetOutcome.ofAnswer : Except ApiError Unit → ResetOutcome
  | .ok () => .success
  | .error _ => .failed

/-- What a turn that is over has left in the journal, and what it counts as. -/
inductive ResetTrace (options : ResetOptions) (o : Observation) : List Entry → ResetOutcome → Prop
  | bare (hstage : o.stage = .maintenance) : ResetTrace options o [] .skipped
  | declined {t t'} (hstage : o.stage ≠ .maintenance) (hconfirm : options.confirm = true) :
      ResetTrace options o (exchange (.ask (Work.resetQuestion o.host)) t t' (.ok false)) .skipped
  | unreached {leave t t' e} (hstage : o.stage ≠ .maintenance)
      (hleave : ResetLeave options o.host leave) :
      ResetTrace options o (leave ++ exchange (.connect o.node) t t' (.error e)) .skipped
  | called {leave client t₀ t₁ t₂ t₃ a} (hstage : o.stage ≠ .maintenance)
      (hleave : ResetLeave options o.host leave) (hclient : client.node = o.node) :
      ResetTrace options o
        (leave ++ opened client t₀ t₁ ++ exchange (.request client (.reset options.request)) t₂ t₃ a)
        (.ofAnswer a)

namespace Work

variable {S : Setting σ} {options : ResetOptions} {o : Observation}

protected theorem Leaves.requestReset {leave : List Entry} (hstage : o.stage ≠ .maintenance)
    (hleave : ResetLeave options o.host leave) :
    (requestReset o options : Work σ _).Leaves S
      fun es r => ∀ a, r = .ok a → ResetTrace options o (leave ++ es) a := by
  intro w r w' h
  rcases gains_of_ends_connect_bind h with ⟨e, w₁, hconnect, hrest⟩ |
    ⟨client, w₁, hclient, hconnect, hrest⟩ | ⟨hconnect, rfl⟩
  · obtain ⟨rfl, rfl⟩ := ends_pure_iff.1 hrest
    refine ⟨_, hconnect, ?_⟩
    rintro a ⟨⟩
    exact .unreached hstage hleave
  · rw [← hclient] at hconnect
    rcases gains_of_ends_call_bind hrest with ⟨answer, w₂, hreset, hrest⟩ | ⟨hreset, rfl⟩
    · have hend : w' = w₂ ∧ r = .ok (.ofAnswer answer) := by
        rcases answer with e | ⟨⟩
        all_goals
          obtain ⟨rfl, rfl⟩ := ends_pure_iff.1 hrest
          exact ⟨rfl, rfl⟩
      obtain ⟨rfl, rfl⟩ := hend
      refine ⟨_, hconnect.trans hreset, ?_⟩
      rintro a ⟨⟩
      rw [← List.append_assoc]
      exact .called hstage hleave hclient
    · refine ⟨_, hconnect.trans hreset, ?_⟩
      rintro a ⟨⟩
  · refine ⟨_, hconnect, ?_⟩
    rintro a ⟨⟩

theorem Leaves.resetNode_asked (hstage : o.stage ≠ .maintenance) (hconfirm : options.confirm = true) :
    (ask (resetQuestion o.host) >>= fun yes =>
      if yes then requestReset o options else pure .skipped : Work σ _).Leaves S
        fun es r => ∀ a, r = .ok a → ResetTrace options o es a := by
  refine .bind (Q := Demanded (.ask (resetQuestion o.host)) id) .ask ?_ ?_
  · intro es stop _ a ha
    cases ha
  · intro es yes hes
    obtain ⟨t, t', rfl⟩ := hes.ok_cases
    cases yes with
    | true => exact Leaves.requestReset hstage (.given hconfirm)
    | false =>
      refine .pure ?_
      rintro a ⟨⟩
      rw [List.append_nil]
      exact .declined hstage hconfirm

theorem Leaves.resetTurn :
    (resetTurn options o : Work σ _).Leaves S
      fun es r => ∀ a, r = .ok a → ResetTrace options o es a := by
  intro w r w' h
  rcases ends_bind_iff.1 h with ⟨⟨⟩, w₁, hcheck, hrest⟩ | ⟨stop, hcheck, rfl⟩
  · obtain ⟨-, rfl⟩ := ends_checkpoint_iff.1 hcheck
    rw [resetNode_eq] at hrest
    split at hrest
    · next hstage =>
      obtain ⟨rfl, rfl⟩ := ends_pure_iff.1 hrest
      refine ⟨[], .refl w', ?_⟩
      rintro a ⟨⟩
      exact .bare (by simpa using hstage)
    next hstage =>
    have hstage : o.stage ≠ .maintenance := by simpa using hstage
    split at hrest
    · next hconfirm =>
      exact Leaves.resetNode_asked hstage hconfirm _ _ _ hrest
    · next hconfirm =>
      exact Leaves.requestReset hstage (.waived (by simpa using hconfirm)) _ _ _ hrest
  · obtain ⟨-, rfl⟩ := ends_checkpoint_iff.1 hcheck
    refine ⟨[], .refl w', ?_⟩
    rintro a ⟨⟩

/-! ## Runs that cannot fail -/

/-- In the setting the work ends without an error, whatever world it begins in. -/
def Succeeds (S : Setting σ) (x : Work σ α) : Prop := ∀ w, ∃ a w', x.Ends S w (.ok a) w'

end Work

/-- The operator can always be asked. -/
def Environment.Consults (env : Environment σ) : Prop :=
  ∀ s t question s', ∃ yes, ((env.serve s t (.ask question)).finish s').2 = .ok yes

namespace Work.Succeeds

variable {S : Setting σ} {options : ResetOptions} {o : Observation}

protected theorem pure (a : α) : (pure a : Work σ α).Succeeds S :=
  fun w => ⟨a, w, ends_pure_iff.2 ⟨rfl, rfl⟩⟩

protected theorem bind {x : Work σ α} {f : α → Work σ β} (hx : x.Succeeds S)
    (hf : ∀ a, (f a).Succeeds S) : (x >>= f).Succeeds S := by
  intro w
  obtain ⟨a, w₁, hfirst⟩ := hx w
  obtain ⟨b, w', hrest⟩ := hf a w₁
  exact ⟨b, w', hfirst.bind hrest⟩

protected theorem map {x : Work σ α} {f : α → β} (hx : x.Succeeds S) : (f <$> x).Succeeds S := by
  rw [map_eq_pure_bind]
  exact .bind hx fun a => .pure (f a)

protected theorem mapM {ι : Type} {items : List ι} {f : ι → Work σ α} (h : ∀ i, (f i).Succeeds S) :
    (items.mapM f).Succeeds S := by
  induction items with
  | nil =>
    rw [List.mapM_nil]
    exact .pure []
  | cons i rest ih =>
    rw [List.mapM_cons]
    exact .bind (h i) fun a => .bind ih fun _ => .pure _

protected theorem checkpoint (hsignal : S.signal = .never) : (checkpoint : Work σ Unit).Succeeds S :=
  fun w => ⟨(), w, ends_checkpoint_iff.2
    ⟨.inr ⟨Setting.not_raisedBy_of_never hsignal _ _, rfl⟩, rfl⟩⟩

section

variable (hlimit : S.limit = none) (hanswers : S.environment.Answers fun _ => True)

include hlimit hanswers

theorem exists_answer (w : World σ) (c : Call) :
    ∃ a w', w.answer? S.environment c = some (a, w') ∧ S.Allows w'.now := by
  obtain ⟨d, hd⟩ := Option.ne_none_iff_exists'.1 (hanswers w.state w.now c trivial)
  exact ⟨_, _, Option.map_eq_some_iff.2 ⟨d, hd, rfl⟩, S.allows_of_limit_none hlimit _⟩

protected theorem call {c : Call} : (call c : Work σ _).Succeeds S := by
  intro w
  obtain ⟨a, w', ha, hw⟩ := exists_answer hlimit hanswers w c
  exact ⟨a, w', ends_call ha hw⟩

protected theorem connect {node : Node} : (connect node : Work σ _).Succeeds S := by
  intro w
  obtain ⟨answer, w₁, hanswer, -⟩ := exists_answer hlimit hanswers w (.connect node)
  cases answer with
  | error e =>
    exact ⟨_, _, ends_connect (Option.map_eq_some_iff.2 ⟨_, hanswer, rfl⟩)
      (S.allows_of_limit_none hlimit _)⟩
  | ok channel =>
    exact ⟨_, _, ends_connect (Option.map_eq_some_iff.2 ⟨_, hanswer, rfl⟩)
      (S.allows_of_limit_none hlimit _)⟩

protected theorem ask (hconsults : S.environment.Consults) {question : String} :
    (ask question : Work σ Bool).Succeeds S := by
  intro w
  obtain ⟨a, w', ha, hw⟩ := exists_answer hlimit hanswers w (.ask question)
  obtain ⟨yes, hyes⟩ := hconsults w.state w.now question
    (S.environment.serve w.state w.now (.ask question)).begun
  obtain ⟨d, -, hd⟩ := Option.map_eq_some_iff.1 ha
  have hanswer : a = .ok yes := (congrArg Prod.fst hd).symm.trans hyes
  subst hanswer
  exact ⟨yes, w', (ends_call ha hw).bind (ends_ofExcept_iff.2 ⟨rfl, rfl⟩)⟩

theorem requestReset : (requestReset o options : Work σ _).Succeeds S := by
  refine .bind (.connect hlimit hanswers) fun a => ?_
  cases a with
  | error e => exact .pure _
  | ok client =>
    refine .bind (.call hlimit hanswers) fun answer => ?_
    rcases answer with e | ⟨⟩ <;> exact .pure _

variable (hsignal : S.signal = .never) (hconsults : S.environment.Consults)

include hsignal hconsults

theorem resetTurn : (resetTurn options o : Work σ _).Succeeds S := by
  refine .bind (.checkpoint hsignal) fun _ => ?_
  rw [resetNode_eq]
  split
  · exact .pure _
  split
  · refine .bind (.ask hlimit hanswers hconsults) fun yes => ?_
    split
    · exact requestReset hlimit hanswers
    · exact .pure _
  · exact requestReset hlimit hanswers

/-- A reset run comes to a tally if nothing keeps it from being answered. -/
protected theorem reset : (reset options : Work σ _).Succeeds S := by
  have hgather : (gather : Work σ _).Succeeds S := fun w =>
    ends_gather_of_answers (fun s t c _ => hanswers s t c trivial) w
  refine .bind hgather fun records => ?_
  rw [resetNodes_eq]
  exact .map (.mapM fun o => resetTurn hlimit hanswers hsignal hconsults)

end

end Work.Succeeds
end Rollout
