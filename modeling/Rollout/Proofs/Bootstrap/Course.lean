import Rollout.Proofs.Apply.Course
import Rollout.Proofs.Preflight.Eligibility
import Rollout.Run.Bootstrap

/-!
# The course of a bootstrap

Past its checks a bootstrap has three phases: the turns of all nodes, starting etcd, and the watchdogs of
all nodes. `BootstrapCourse` says how far it comes.
-/

namespace Rollout

variable {σ : Type} {S : Setting σ} {confirm : Bool} {w w' : World σ}

namespace Work

def bootstrapEligible (confirm : Bool) (eligible : List Observation) : Work σ BootstrapReport := do
  let outcomes ← applyNodes { confirm } false eligible
  let nodes := eligible.map (·.node)
  let etcd ← ensureEtcd nodes
  waitAllStable nodes
  return { outcomes, etcd }

/-- Without a control-plane node in front nothing is done. -/
theorem ends_bootstrap_iff {r : Except Stop BootstrapReport} :
    (bootstrap confirm).Ends S w r w' ↔
      (checkSeed S.nodes = .ok () ∧
        (guarded .bootstrap (bootstrapEligible confirm)).Ends S w r w') ∨
      ∃ e, checkSeed S.nodes = .error e ∧ r = .error (.error e) ∧ w' = w := by
  unfold Ends bootstrap
  rw [result?_read_bind]
  refine ends_ofExcept_bind_iff.trans ?_
  constructor
  · rintro (⟨⟨⟩, hseed, h⟩ | h)
    · exact .inl ⟨hseed, h⟩
    · exact .inr h
  · rintro (⟨hseed, h⟩ | h)
    · exact .inl ⟨(), hseed, h⟩
    · exact .inr h

theorem waitAllStable_eq (nodes : List Node) :
    (waitAllStable nodes : Work σ Unit) =
      (fun _ => ()) <$> nodes.mapM (waitStable · stableWindow) := by
  induction nodes with
  | nil => rfl
  | cons node rest ih =>
    rw [waitAllStable, ih, List.mapM_cons]
    simp only [map_eq_pure_bind, bind_assoc, pure_bind]

end Work

abbrev watchTurns (S : Setting σ) (node : Node) : World σ → Except Stop Unit → World σ → Prop :=
  (Work.waitStable node stableWindow).Ends S

/-- How far a bootstrap over the nodes comes, begun in `w`. -/
inductive BootstrapCourse (S : Setting σ) (confirm : Bool) (eligible : List Observation) (w : World σ) :
    Except Stop BootstrapReport → World σ → Prop
  | unapplied {stop w'}
      (hturns : Turnwise (applyTurns S { confirm } false) eligible w (.error stop) w') :
      BootstrapCourse S confirm eligible w (.error stop) w'
  | unstarted {as v stop w'} (hturns : Series (applyTurns S { confirm } false) eligible w as v)
      (hetcd : (Work.ensureEtcd (eligible.map (·.node))).Ends S v (.error stop) w') :
      BootstrapCourse S confirm eligible w (.error stop) w'
  | watched {as v etcd u r w'} (hturns : Series (applyTurns S { confirm } false) eligible w as v)
      (hetcd : (Work.ensureEtcd (eligible.map (·.node))).Ends S v (.ok etcd) u)
      (hwatch : Turnwise (watchTurns S) (eligible.map (·.node)) u r w') :
      BootstrapCourse S confirm eligible w
        (r.map fun _ => { outcomes := (eligible.map (·.host)).zip as, etcd }) w'

variable {eligible : List Observation}

theorem bootstrapCourse_of_ends {r : Except Stop BootstrapReport}
    (h : (Work.bootstrapEligible confirm eligible).Ends S w r w') :
    BootstrapCourse S confirm eligible w r w' := by
  rcases series_of_ends_applyNodes_bind h with ⟨stop, rfl, hturns⟩ | ⟨as, v, hturns, hrest⟩
  · exact .unapplied hturns
  rcases Work.ends_bind_iff.1 hrest with ⟨etcd, u, hetcd, hrest⟩ | ⟨stop, hetcd, rfl⟩
  · have hmap : (Work.waitAllStable (eligible.map (·.node)) >>= fun _ =>
        pure { outcomes := (eligible.map (·.host)).zip as, etcd }).Ends S u r w' := hrest
    rw [Work.waitAllStable_eq, bind_map_left, ← map_eq_pure_bind] at hmap
    obtain ⟨r₁, hwatch, rfl⟩ := Work.ends_map_iff.1 hmap
    exact .watched hturns hetcd (Work.turnwise_of_ends_mapM hwatch)
  · exact .unstarted hturns hetcd

theorem extends_of_ends_unwatchedTurn (hlimit : S.limit = none) (o : Observation) (w : World σ)
    (r : Except Stop ApplyOutcome) (w' : World σ)
    (h : applyTurns S { confirm } false o w r w') : w.Extends (Applies o.node) w' := by
  refine h.extends (.applyTurn hlimit (fun _ hc => hc) fun outcome hwatched => ?_)
  cases hwatched

theorem extends_of_ends_watchTurn (hlimit : S.limit = none) (node : Node) (w : World σ)
    (r : Except Stop Unit) (w' : World σ) (h : watchTurns S node w r w') :
    w.Extends (Watches node) w' :=
  h.extends (.waitStable hlimit)

namespace Work

theorem Runs.bootstrapRest (hlimit : S.limit = none) {f : EtcdOutcome → BootstrapReport} :
    (Work.ensureEtcd (eligible.map (·.node)) >>= fun etcd =>
      Work.waitAllStable (eligible.map (·.node)) >>= fun _ => pure (f etcd)).Runs S
      fun c => ∃ o ∈ eligible, InTurn o.node c := by
  refine .bind (.ensureEtcd_inTurn hlimit) fun etcd => .bind ?_ fun _ => .pure _
  rw [waitAllStable_eq]
  refine .map (.mapM fun node hnode => (Runs.waitStable hlimit).mono fun c hc => ?_)
  obtain ⟨o, ho, rfl⟩ := List.mem_map.1 hnode
  exact ⟨o, ho, hc.inTurn⟩

protected theorem Runs.bootstrapEligible (hlimit : S.limit = none) :
    (bootstrapEligible confirm eligible).Runs S fun c => ∃ o ∈ eligible, InTurn o.node c :=
  .bind (.applyNodes_inTurn hlimit) fun _ => .bootstrapRest hlimit

protected theorem Runs.bootstrap (hlimit : S.limit = none) :
    (bootstrap confirm).Runs S fun _ => True := by
  intro w
  cases hseed : checkSeed S.nodes with
  | error e => exact ⟨_, w, ends_bootstrap_iff.2 (.inr ⟨e, hseed, rfl, rfl⟩), .refl w⟩
  | ok _ =>
    obtain ⟨r, w', h, hextends⟩ : ∃ r w',
        (guarded .bootstrap (bootstrapEligible confirm)).Ends S w r w' ∧
          w.Extends (fun _ => True) w' :=
      Runs.guarded (fun _ _ => trivial)
        (fun eligible => (Runs.bootstrapEligible hlimit).mono fun _ _ => trivial) w
    exact ⟨r, w', ends_bootstrap_iff.2 (.inl ⟨hseed, h⟩), hextends⟩

end Work
end Rollout
