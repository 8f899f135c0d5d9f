import Rollout.Proofs.Run.Growth
import Rollout.Run.Gather

/-!
# Gathering keeps the order

Observed, being observed, not yet begun: the nodes of a run pass through these three in visiting order,
whatever the order in which they answer. So the records are those of the run's nodes, in that order. Many
answers are waited for at once, but none is due before the time it is, so the clock does not go back.
-/

namespace Rollout

variable {σ : Type}

def Place.node : Place σ → Node
  | ready record _ _ => record.node
  | waiting record _ _ _ => record.node
  | observed record => record.node

theorem Observation.node_advance (o : Observation) (number : Nat) (step : Observation.Step)
    (result : (step.call o.node).Result) : (o.advance number step result).1.node = o.node := by
  cases step <;> cases result <;> rfl

def Observes (c : Call) : Prop := ∃ node step, c = Observation.Step.call node step

namespace Gathering

/-- The nodes of a run, by how far they have come. -/
def visiting (g : Gathering σ) : List Node :=
  g.records.toList.map (·.node) ++ g.places.map Place.node ++ g.unstarted

theorem node_go (env : Environment σ) (now : Instant) (w : World σ) (p : Place σ) :
    (go env now w p).2.node = p.node := by
  cases p with
  | ready record step since => rfl
  | observed record => rfl
  | waiting record step wake finish =>
    have hnode := record.node_advance w.connections step (finish w.state).2
    unfold go settle
    dsimp only
    split
    · next h => exact (congrArg (·.1.node) h).symm.trans hnode
    · next h => exact (congrArg (·.1.node) h).symm.trans hnode

theorem map_node_goFirst (env : Environment σ) (now : Instant) (w : World σ)
    (places : List (Place σ)) :
    (goFirst env now w places).2.map Place.node = places.map Place.node := by
  induction places with
  | nil => rfl
  | cons p rest ih =>
    unfold goFirst
    split
    · simp [node_go]
    · simp [ih]

theorem visiting_release? {g g' : Gathering σ} (h : g.release? = some g') :
    g'.visiting = g.visiting := by
  unfold release? at h
  split at h
  · next record places hplaces =>
    cases h
    simp [visiting, hplaces, Place.node]
  · cases h

theorem visiting_start? {g g' : Gathering σ} (h : g.start? = some g') :
    g'.visiting = g.visiting := by
  unfold start? at h
  split at h
  · next node unstarted hunstarted =>
    split at h
    · cases h
      simp [visiting, hunstarted, Place.node]
    · cases h
  · cases h

theorem visiting_proceed? {env : Environment σ} {g g' : Gathering σ}
    (h : g.proceed? env = some g') : g'.visiting = g.visiting := by
  obtain ⟨now, -, rfl⟩ := Option.map_eq_some_iff.1 h
  simp [visiting, map_node_goFirst]

theorem visiting_next? {env : Environment σ} {g g' : Gathering σ} (h : g.next? env = some g') :
    g'.visiting = g.visiting := by
  unfold next? at h
  rcases Option.or_eq_some_iff.1 h with h | ⟨-, h⟩
  · rcases Option.or_eq_some_iff.1 h with h | ⟨-, h⟩
    · exact visiting_release? h
    · exact visiting_start? h
  · exact visiting_proceed? h

theorem visiting_run (env : Environment σ) (g : Gathering σ) :
    (g.run env).visiting = g.visiting := by
  induction g using run.induct env with
  | case1 g h =>
    rw [run, h]
  | case2 g g' h ih =>
    rw [run, h]
    exact ih.trans (visiting_next? h)

theorem next?_run (env : Environment σ) (g : Gathering σ) : (g.run env).next? env = none := by
  induction g using run.induct env with
  | case1 g h => rwa [run, h]
  | case2 g g' h ih =>
    rw [run, h]
    exact ih

/-- No place is due in the past. -/
def Timely (g : Gathering σ) : Prop :=
  ∀ p ∈ g.places, ∀ t, p.due? = some t → g.world.now ≤ t

/-- A place that goes on at its time makes a call or takes in the answer, and is due later. -/
theorem extends_go {now : Instant} (env : Environment σ) (w : World σ) (p : Place σ)
    (hw : w.now ≤ now) (hp : p.due? = some now) :
    w.Extends Observes (go env now w p).1 ∧ (go env now w p).1.now = now ∧
      ∀ t, (go env now w p).2.due? = some t → now ≤ t := by
  cases p with
  | ready record step since =>
    refine ⟨⟨hw, [.sent now (step.call record.node)], Array.toList_push, ?_⟩, rfl, fun t ht => ?_⟩
    · simpa [Entry.call, Entry.time, go, hw] using ⟨record.node, step, rfl⟩
    · obtain ⟨d, -, rfl⟩ := Option.map_eq_some_iff.1 ht
      exact Nat.le_add_right _ _
  | waiting record step wake finish =>
    refine ⟨⟨hw, [.answered now (step.call record.node) (finish w.state).2], Array.toList_push, ?_⟩,
      rfl, fun t ht => ?_⟩
    · simpa [Entry.call, Entry.time, go, hw] using ⟨record.node, step, rfl⟩
    · unfold go settle at ht
      dsimp only at ht
      split at ht
      · cases ht
        exact le_rfl
      · cases ht
  | observed record => cases hp

theorem extends_goFirst {now : Instant} (env : Environment σ) (w : World σ) {places : List (Place σ)}
    (hw : w.now ≤ now) (hdue : ∃ p ∈ places, p.due? = some now)
    (hplaces : ∀ p ∈ places, ∀ t, p.due? = some t → now ≤ t) :
    w.Extends Observes (goFirst env now w places).1 ∧ (goFirst env now w places).1.now = now ∧
      ∀ p ∈ (goFirst env now w places).2, ∀ t, p.due? = some t → now ≤ t := by
  induction places with
  | nil =>
    obtain ⟨p, hp, -⟩ := hdue
    cases hp
  | cons q rest ih =>
    have hrest : ∀ p ∈ rest, ∀ t, p.due? = some t → now ≤ t :=
      fun p hp => hplaces p (List.mem_cons_of_mem q hp)
    unfold goFirst
    split
    · next hq =>
      obtain ⟨hextends, hnow, hlater⟩ := extends_go env w q hw hq
      exact ⟨hextends, hnow, List.forall_mem_cons.2 ⟨hlater, hrest⟩⟩
    · next hq =>
      have hdue' : ∃ p ∈ rest, p.due? = some now := by
        obtain ⟨p, hp, hnow⟩ := hdue
        rcases List.mem_cons.1 hp with rfl | hp
        · exact absurd hnow hq
        · exact ⟨p, hp, hnow⟩
      obtain ⟨hextends, hnow, hlater⟩ := ih hdue' hrest
      exact ⟨hextends, hnow, List.forall_mem_cons.2 ⟨hplaces q List.mem_cons_self, hlater⟩⟩

/-- The time at which a gathering goes on is that of the place due first. -/
theorem le_of_nextTime? {places : List (Place σ)} {now : Instant} (h : nextTime? places = some now) :
    ∀ p ∈ places, ∀ t, p.due? = some t → now ≤ t := by
  intro p hp t ht
  exact (List.min?_eq_some_iff.1 h).2 t (List.mem_filterMap.2 ⟨p, hp, ht⟩)

theorem Timely.next? {env : Environment σ} {g g' : Gathering σ} (hg : g.Timely)
    (h : g.next? env = some g') : g.world.Extends Observes g'.world ∧ g'.Timely := by
  unfold Gathering.next? at h
  rcases Option.or_eq_some_iff.1 h with h | ⟨-, h⟩
  · rcases Option.or_eq_some_iff.1 h with h | ⟨-, h⟩
    · unfold release? at h
      split at h
      · next record places hplaces =>
        cases h
        exact ⟨.refl _, fun p hp => hg p (hplaces ▸ List.mem_cons_of_mem _ hp)⟩
      · cases h
    · unfold start? at h
      split at h
      · split at h
        · cases h
          refine ⟨.refl _, fun p hp t ht => ?_⟩
          rcases List.mem_append.1 hp with hp | hp
          · exact hg p hp t ht
          · obtain rfl := List.mem_singleton.1 hp
            cases ht
            exact le_rfl
        · cases h
      · cases h
  · obtain ⟨now, hnext, rfl⟩ := Option.map_eq_some_iff.1 h
    have hdue := exists_due hnext
    have hnow : g.world.now ≤ now := by
      obtain ⟨p, hp, ht⟩ := hdue
      exact hg p hp now ht
    obtain ⟨hextends, hnow', hlater⟩ := extends_goFirst env g.world hnow hdue (le_of_nextTime? hnext)
    exact ⟨hextends, fun p hp t ht => hnow'.trans_le (hlater p hp t ht)⟩

theorem extends_run (env : Environment σ) {g : Gathering σ} (hg : g.Timely) :
    g.world.Extends Observes (g.run env).world := by
  induction g using run.induct env with
  | case1 g h =>
    rw [run, h]
    exact .refl _
  | case2 g g' h ih =>
    rw [run, h]
    obtain ⟨hextends, hg'⟩ := hg.next? h
    exact hextends.trans (ih hg')

/-- While there is a free place no node is left without one. -/
theorem unstarted_eq_nil {env : Environment σ} {g : Gathering σ} (h : g.next? env = none)
    (hplaces : g.places = []) : g.unstarted = [] := by
  have hstart : g.start? = none := (Option.or_eq_none_iff.1 (Option.or_eq_none_iff.1 h).1).2
  unfold start? at hstart
  rw [hplaces] at hstart
  cases hunstarted : g.unstarted with
  | nil => rfl
  | cons node rest =>
    rw [hunstarted] at hstart
    cases hstart

end Gathering

namespace Work

variable {S : Setting σ} {w w' : World σ}

def gathered (S : Setting σ) (w : World σ) : Gathering σ :=
  Gathering.run S.environment ⟨w, [], S.nodes, #[]⟩

theorem result?_gather :
    (gather : Work σ _).result? S w =
      some (if (gathered S w).places.isEmpty then .ok (gathered S w).records.toList
        else .error .overdue, (gathered S w).world) := by
  change ((if (gathered S w).places.isEmpty then pure (gathered S w).records.toList
    else throw .overdue : Work σ _).result? S (gathered S w).world) = _
  split <;> rfl

theorem Runs.gather : (gather : Work σ _).Runs S Observes := by
  intro w
  have hstart : (⟨w, [], S.nodes, #[]⟩ : Gathering σ).Timely := by simp [Gathering.Timely]
  exact ⟨_, _, result?_gather, Gathering.extends_run S.environment hstart⟩

theorem records_of_ends_gather {records : List Observation} (h : gather.Ends S w (.ok records) w') :
    (gathered S w).places = [] ∧ records = (gathered S w).records.toList := by
  obtain ⟨hr, -⟩ := h.unique result?_gather
  split at hr
  · next hplaces =>
    cases hr
    exact ⟨List.isEmpty_iff.1 hplaces, rfl⟩
  · cases hr

theorem nodes_of_ends_gather {records : List Observation} (h : gather.Ends S w (.ok records) w') :
    records.map (·.node) = S.nodes := by
  obtain ⟨hempty, rfl⟩ := records_of_ends_gather h
  have hnone : (gathered S w).next? S.environment = none := Gathering.next?_run ..
  have hvisiting : (gathered S w).visiting = S.nodes := Gathering.visiting_run ..
  simpa [Gathering.visiting, hempty, Gathering.unstarted_eq_nil hnone hempty] using hvisiting

theorem nodup_hosts_of_ends_gather {records : List Observation}
    (hhosts : (S.nodes.map (·.host)).Nodup) (h : gather.Ends S w (.ok records) w') :
    (records.map (·.host)).Nodup := by
  rw [← nodes_of_ends_gather h, List.map_map] at hhosts
  exact hhosts

end Work
end Rollout
