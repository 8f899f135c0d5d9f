import Rollout.Proofs.Gather.Conduct
import Rollout.Proofs.Gather.Schedule

/-!
# Gathering as a whole

Every node gets its record, in visiting order; at no moment are more than sixteen nodes read, and each is
read from when its place opens. What a record says depends on nothing but the conduct of its node: in any
other run in which the node conducts itself the same way, it is the same.
-/

namespace Rollout

variable {σ τ : Type}

/-- What gathering comes to that was begun in `w`, gave `records` and left `log`. -/
structure GathersInPlaces (S : Setting σ) (w : World σ) (log : List Entry)
    (records : List Observation) : Prop where
  complete : records.map (·.node) = S.nodes
  bounded : ∀ front back, log = front ++ back →
    (underway (S.nodes.map (·.host)) front back).length ≤ gatherWidth
  punctual : ∀ i node, S.nodes[i]? = some node → ∃ began ended,
    readFrom? log node.host = some began ∧ readUntil? log node.host = some ended ∧
      opening? (S.nodes.map (·.host)) log w.now i = some began

namespace Work

variable {S : Setting σ} {w w' : World σ} {records : List Observation} {log : List Entry}

theorem exists_punctual (S : Setting σ) (hhosts : (S.nodes.map (·.host)).Nodup) (w : World σ) :
    ∃ log, w.Gains (gathered S w).world log ∧
      (gathered S w).Placed S.environment (S.nodes.map (·.host)) log ∧
      (gathered S w).Punctual (S.nodes.map (·.host)) w.now log := by
  refine holds_gathered (S := S) (w := w) (I := fun g => ∃ log, w.Gains g.world log ∧
    g.Placed S.environment (S.nodes.map (·.host)) log ∧ g.Punctual (S.nodes.map (·.host)) w.now log)
    ⟨[], .refl w, ⟨by simp [Gathering.visiting], by simp, by simp, by simp, .nil⟩,
      ⟨by simp [Gathering.Timely], le_rfl, by simp, by simp [Gathering.begun], by simp, ?_⟩⟩ ?_
  · intro _ _
    rfl
  · rintro g g' ⟨log, hlog, hplaced, hpunctual⟩ hstep
    obtain ⟨log', hlog', hplaced'⟩ := hplaced.step hhosts hlog hstep
    exact ⟨log', hlog', hplaced', hpunctual.step hhosts hlog hplaced hstep hlog'⟩

theorem gathersInPlaces_of_ends (hhosts : (S.nodes.map (·.host)).Nodup)
    (h : gather.Ends S w (.ok records) w') (hlog : w.Gains w' log) :
    GathersInPlaces S w log records := by
  have hnodes : records.map (·.node) = S.nodes := nodes_of_ends_gather h
  obtain ⟨hr, rfl⟩ := h.unique result?_gather
  obtain ⟨log', hlog', hplaced, hpunctual⟩ := exists_punctual S hhosts w
  obtain rfl := hlog.unique hlog'
  split at hr
  · next hplaces =>
    cases hr
    have hempty : (gathered S w).places = [] := List.isEmpty_iff.1 hplaces
    refine ⟨hnodes, fun front back hsplit => ?_, fun i node hnode => ?_⟩
    · subst hsplit
      exact hplaced.inPlaces.length_underway_le
    · obtain ⟨o, ho, rfl⟩ : ∃ o, (gathered S w).records.toList[i]? = some o ∧ o.node = node := by
        rw [← hnodes, List.getElem?_map] at hnode
        exact Option.map_eq_some_iff.1 hnode
      have hbegun : (gathered S w).begun[i]? = some (.observed o) := by
        rw [Gathering.begun, hempty, List.append_nil, List.getElem?_map, ho]
        rfl
      obtain ⟨began, hopens, hfrom | ⟨-, hdue⟩⟩ := hpunctual.opened i _ hbegun
      · have hmem : began ∈ timesOf log o.node.host := List.mem_of_head? hfrom
        exact ⟨began, _, hfrom, List.getLast?_eq_some_getLast (List.ne_nil_of_mem hmem), hopens⟩
      · cases hdue
  · cases hr

end Work

/-- Gathering is complete, in order, bounded and punctual, and every record is the same in any other run
in which its node conducts itself the same way from the same state, whatever the others do. -/
theorem gather_reads_each_node_in_its_place (S : Setting σ) (w : World σ) (view : Node → σ → τ)
    (conduct : Node → Conduct τ) (hhosts : (S.nodes.map (·.host)).Nodup)
    (hanswers : S.environment.Answers fun c => ∃ node ∈ S.nodes, c.node? = some node)
    (hconducts : ∀ node ∈ S.nodes, S.environment.Conducts node (view node) (conduct node)) :
    ∃ records w' log, Work.gather.Ends S w (.ok records) w' ∧ w.Gains w' log ∧
      GathersInPlaces S w log records ∧
      ∀ (σ' : Type) (S' : Setting σ') (v v' : World σ') (view' : σ' → τ)
        (records' : List Observation) (o o' : Observation),
        (S'.nodes.map (·.host)).Nodup → Work.gather.Ends S' v (.ok records') v' →
        o ∈ records → o' ∈ records' → o'.node = o.node →
        S'.environment.Conducts o.node view' (conduct o.node) →
        view' v.state = view o.node w.state → o' = o := by
  obtain ⟨records, w', h⟩ := Work.ends_gather_of_answers hanswers w
  obtain ⟨log, hlog, -⟩ := (h.extends .gather).gains
  refine ⟨records, w', log, h, hlog, Work.gathersInPlaces_of_ends hhosts h hlog, ?_⟩
  intro σ' S' v v' view' records' o o' hhosts' h' ho ho' hnode hconduct hview
  have hmem : o.node ∈ S.nodes := by
    rw [← Work.nodes_of_ends_gather h]
    exact List.mem_map_of_mem ho
  have hread := Work.reading_of_ends_gather hhosts (hconducts _ hmem) h ho rfl
  have hread' := Work.reading_of_ends_gather hhosts' hconduct h' ho' hnode
  rw [hview, ← hread] at hread'
  exact congrArg Prod.fst hread'

/-- A node that accepts connections but answers no request, and counts those it refuses. -/
def busyNode : Conduct ℕ where
  connect n := ⟨n, fun n => (n, .ok .mutual)⟩
  render n := ⟨n, fun n => (n, .ok [])⟩
  request n _ _ := ⟨n, fun n => (n + 1, .error (.unavailable "busy"))⟩

def busyWorld : Environment (String → ℕ) :=
  Conduct.world (fun _ => busyNode) (fun c => (c.node?.map (·.host.length)).getD 0) fun _ => .ok true

def twentyNodes : Setting (String → ℕ) where
  environment := busyWorld
  cluster := { name := "test", endpoint := "https://a:6443" }
  nodes := (List.range 20).map fun i => { host := String.ofList (List.replicate i 'n'), role := .worker }

theorem gather_reads_twenty_nodes :
    (twentyNodes.nodes.map (·.host)).Nodup ∧
      ∃ records w' log, Work.gather.Ends twentyNodes { state := fun _ => 0 } (.ok records) w' ∧
        records.length = 20 ∧ World.Gains { state := fun _ => 0 } w' log ∧
        GathersInPlaces twentyNodes { state := fun _ => 0 } log records := by
  have hhosts : (twentyNodes.nodes.map (·.host)).Nodup := by decide +kernel
  have hanswers : busyWorld.Answers fun c => ∃ node ∈ twentyNodes.nodes, c.node? = some node :=
    Conduct.answers_world _
  have hconducts : ∀ node ∈ twentyNodes.nodes,
      busyWorld.Conducts node (fun s => s node.host) busyNode :=
    fun node _ => Conduct.conducts_world node
  obtain ⟨records, w', log, h, hlog, hplaces, -⟩ :=
    gather_reads_each_node_in_its_place twentyNodes { state := fun _ => 0 }
      (fun node s => s node.host) (fun _ => busyNode) hhosts hanswers hconducts
  have hlength : records.length = 20 := by
    have hnodes := congrArg List.length hplaces.complete
    simpa [twentyNodes] using hnodes
  exact ⟨hhosts, records, w', log, h, hlength, hlog, hplaces⟩

end Rollout
