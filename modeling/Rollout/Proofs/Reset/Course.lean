import Rollout.Proofs.Apply.Turn
import Rollout.Proofs.Preflight.Eligibility
import Rollout.Proofs.Run.Turns
import Rollout.Run.Reset

/-!
# The course of a reset run

Once it has gathered, a reset run is the turns of all its nodes, and the tally counts their outcomes.
-/

namespace Rollout

variable {σ : Type} {S : Setting σ} {options : ResetOptions} {tally : ResetTally} {w w' : World σ}
  {o : Observation} {records : List Observation}

/-- A call of a turn: to its node, or the question about it. -/
def ResetCalls (o : Observation) (c : Call) : Prop :=
  c.node? = some o.node ∨ c = .ask (Work.resetQuestion o.host)

theorem ResetCalls.inTurn {c : Call} (h : ResetCalls o c) : InTurn o.node c := by
  rcases h with h | rfl
  · exact .inl h
  · exact .inr rfl

namespace Work

/-- What a turn does once nothing speaks against it. -/
def requestReset (o : Observation) (options : ResetOptions) : Work σ ResetOutcome := do
  match ← connect o.node with
  | .error _ => return .skipped
  | .ok client =>
    match ← request client (.reset options.request) with
    | .ok () => return .success
    | .error _ => return .failed

theorem resetNode_eq :
    (resetNode o options : Work σ _) =
      if o.stage == .maintenance then pure .skipped
      else if options.confirm then
        ask (resetQuestion o.host) >>= fun yes =>
          if yes then requestReset o options else pure .skipped
      else requestReset o options := by
  unfold resetNode
  split
  · rfl
  split
  · dsimp only
    congr 1
    funext yes
    cases yes <;> rfl
  · rfl

def resetTurn (options : ResetOptions) (o : Observation) : Work σ ResetOutcome := do
  checkpoint
  resetNode o options

theorem resetNodes_eq :
    (resetNodes options tally records : Work σ _) =
      (·.foldl ResetTally.count tally) <$> records.mapM (resetTurn options) := by
  induction records generalizing tally with
  | nil => rfl
  | cons o rest ih =>
    rw [resetNodes, List.mapM_cons]
    simp only [ih, resetTurn, map_eq_pure_bind, bind_assoc, pure_bind, List.foldl_cons]

theorem Runs.requestReset : (requestReset o options : Work σ _).Runs S (ResetCalls o) := by
  refine .connect_bind (.inl rfl) (fun e => .pure _) fun client hclient => ?_
  refine .bind (.request (.inl (congrArg some hclient))) fun answer => ?_
  cases answer <;> exact .pure _

theorem Runs.resetNode : (resetNode o options : Work σ _).Runs S (ResetCalls o) := by
  rw [resetNode_eq]
  split
  · exact .pure _
  split
  · refine .bind (.ask (.inr rfl)) fun yes => ?_
    split
    · exact .requestReset
    · exact .pure _
  · exact .requestReset

theorem Runs.resetTurn_calls : (resetTurn options o : Work σ _).Runs S (ResetCalls o) :=
  .bind .checkpoint fun _ => .resetNode

protected theorem Runs.resetTurn : (resetTurn options o : Work σ _).Runs S (InTurn o.node) :=
  Runs.resetTurn_calls.mono fun _ hc => hc.inTurn

protected theorem Runs.reset : (reset options : Work σ _).Runs S fun _ => True := by
  refine .bind (Runs.gather.mono fun _ _ => trivial) fun records => ?_
  rw [resetNodes_eq]
  exact .map (.mapM fun o _ => Runs.resetTurn.mono fun _ _ => trivial)

end Work
end Rollout
