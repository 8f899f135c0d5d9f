import Rollout.Proofs.Run.Evolution
import Rollout.Proofs.Run.Histories

/-!
# The steps of a gathering

`Gathering.Steps` lists what a step can be, and what is known of the gathering when it is made: a place is
given back before another node starts, and nobody goes on while a node could start. What holds before the
first step and is kept by each holds in the end, and every such fact is shown from this list.
-/

namespace Rollout

variable {σ β : Type}

def Place.call? : Place σ → Option Call
  | ready record step _ => some (step.call record.node)
  | waiting record step _ _ => some (step.call record.node)
  | observed _ => none

/-- A place calls its own node, and the answer it waits for is that of the environment. -/
def Place.Served (env : Environment σ) : Place σ → Prop
  | ready record step _ => (step.call record.node).node? = some record.node
  | waiting record step _ finish =>
    (step.call record.node).node? = some record.node ∧
      ∃ s t, finish = (env.serve s t (step.call record.node)).finish
  | observed _ => True

theorem Place.Served.node?_eq {env : Environment σ} {p : Place σ} {c : Call} (h : p.Served env)
    (hc : p.call? = some c) : c.node? = some p.node := by
  cases p with
  | ready record step since =>
    cases hc
    exact h
  | waiting record step wake finish =>
    cases hc
    exact h.1
  | observed record => cases hc

theorem Place.observes_of_call? {p : Place σ} {c : Call} (h : p.call? = some c) : Observes c := by
  cases p with
  | ready record step since =>
    cases h
    exact ⟨record.node, step, rfl⟩
  | waiting record step wake finish =>
    cases h
    exact ⟨record.node, step, rfl⟩
  | observed record => cases h

theorem Observation.node?_advance {o o' : Observation} {number : Nat} {step next : Observation.Step}
    {result : (step.call o.node).Result} (hstep : (step.call o.node).node? = some o.node)
    (h : o.advance number step result = (o', some next)) :
    (next.call o'.node).node? = some o'.node := by
  cases step <;> cases result <;> cases h
  · rfl
  · exact hstep
  · exact hstep
  · rfl

def Environment.Answers (env : Environment σ) (P : Call → Prop) : Prop :=
  ∀ s t c, P c → (env.serve s t c).delay ≠ none

namespace Gathering

/-- The first place is not given back yet. -/
def HeadPending (g : Gathering σ) : Prop := ∀ record rest, g.places ≠ .observed record :: rest

/-- What a step of a gathering can be. -/
inductive Steps (env : Environment σ) (g : Gathering σ) : Gathering σ → Prop
  | released {record places} (hplaces : g.places = .observed record :: places) :
      Steps env g { g with places, records := g.records.push record }
  | started {node unstarted} (hhead : g.HeadPending) (hunstarted : g.unstarted = node :: unstarted)
      (hfree : g.places.length < gatherWidth) :
      Steps env g { g with places := g.places ++ [.ready { node } .connect g.world.now], unstarted }
  | proceeded {now done p rest} (hhead : g.HeadPending)
      (hfull : g.unstarted = [] ∨ gatherWidth ≤ g.places.length)
      (hplaces : g.places = done ++ p :: rest) (hdue : p.due? = some now)
      (hfirst : ∀ q ∈ g.places, ∀ t, q.due? = some t → now ≤ t) :
      Steps env g
        { g with world := (go env now g.world p).1, places := done ++ (go env now g.world p).2 :: rest }

variable {env : Environment σ} {g g' : Gathering σ}

theorem headPending_iff : g.HeadPending ↔ g.release? = none := by
  unfold HeadPending release?
  split
  · next record rest hplaces => simp [hplaces]
  · next hnot => simpa using hnot

theorem start?_eq_none_iff : g.start? = none ↔ g.unstarted = [] ∨ gatherWidth ≤ g.places.length := by
  unfold start?
  cases g.unstarted with
  | nil => simp
  | cons node unstarted => simp

theorem steps_of_next? (h : g.next? env = some g') : g.Steps env g' := by
  unfold next? at h
  rcases Option.or_eq_some_iff.1 h with h | ⟨hnone, h⟩
  · rcases Option.or_eq_some_iff.1 h with h | ⟨hhead, h⟩
    · unfold release? at h
      split at h
      · next record places hplaces =>
        cases h
        exact .released hplaces
      · cases h
    · unfold start? at h
      split at h
      · next node unstarted hunstarted =>
        split at h
        · next hfree =>
          cases h
          exact .started (headPending_iff.2 hhead) hunstarted hfree
        · cases h
      · cases h
  · obtain ⟨hhead, hstart⟩ := Option.or_eq_none_iff.1 hnone
    obtain ⟨now, hnext, rfl⟩ := Option.map_eq_some_iff.1 h
    obtain ⟨done, p, rest, hplaces, hdue, hgo⟩ := goFirst_eq env g.world (exists_due hnext)
    rw [hgo]
    exact .proceeded (headPending_iff.2 hhead) (start?_eq_none_iff.1 hstart) hplaces hdue
      (le_of_nextTime? hnext)

theorem holds_run {I : Gathering σ → Prop} (hstep : ∀ g g', I g → g.Steps env g' → I g') (h : I g) :
    I (g.run env) := by
  induction g using run.induct env with
  | case1 g hnone => rwa [run, hnone]
  | case2 g g' hnext ih =>
    rw [run, hnext]
    exact ih (hstep g g' h (steps_of_next? hnext))

/-- In the end nobody can go on: all nodes are observed, or the first place waits for ever. -/
theorem stuck_run (env : Environment σ) (g : Gathering σ) :
    (g.run env).HeadPending ∧ ∀ p ∈ (g.run env).places, p.due? = none := by
  have hnone := next?_run env g
  obtain ⟨hnone, hproceed⟩ := Option.or_eq_none_iff.1 hnone
  refine ⟨headPending_iff.2 (Option.or_eq_none_iff.1 hnone).1, fun p hp => ?_⟩
  have hdue : (g.run env).places.filterMap Place.due? = [] :=
    List.min?_eq_none_iff.1 (Option.map_eq_none_iff.1 hproceed)
  exact List.filterMap_eq_nil_iff.1 hdue p hp

theorem visiting_eq (g : Gathering σ) : g.visiting = g.begun.map Place.node ++ g.unstarted := by
  simp [visiting, begun, Place.node, Function.comp_def]

theorem Steps.visiting_eq (h : g.Steps env g') : g'.visiting = g.visiting := by
  cases h with
  | released hplaces => simp [visiting, hplaces, Place.node]
  | started _ hunstarted => simp [visiting, hunstarted, Place.node]
  | proceeded _ _ hplaces => simp [visiting, hplaces, node_go]

section

variable {p : Place σ} {record : Observation} {places done rest : List (Place σ)} {unstarted : List Node}

theorem length_begun (g : Gathering σ) : g.begun.length = g.records.size + g.places.length := by
  simp [begun]

theorem begun_released (hplaces : g.places = .observed record :: places) :
    ({ g with places, records := g.records.push record } : Gathering σ).begun = g.begun := by
  simp [begun, hplaces]

theorem begun_started :
    ({ g with places := g.places ++ [p], unstarted } : Gathering σ).begun = g.begun ++ [p] := by
  simp [begun]

theorem begun_eq_append (hplaces : g.places = done ++ p :: rest) :
    g.begun = (g.records.toList.map .observed ++ done) ++ p :: rest := by
  simp [begun, hplaces]

end

/-! ## What the places do to the world -/

theorem served_go {now : Instant} {w : World σ} {p : Place σ} (h : p.Served env) :
    (go env now w p).2.Served env := by
  cases p with
  | ready record step since => exact ⟨h, w.state, now, rfl⟩
  | waiting record step wake finish =>
    unfold go settle
    dsimp only
    split
    · next hadvance => exact Observation.node?_advance h.1 hadvance
    · trivial
  | observed record => trivial

theorem Steps.served (h : g.Steps env g') (hg : ∀ p ∈ g.places, p.Served env) :
    ∀ p ∈ g'.places, p.Served env := by
  cases h with
  | released hplaces => exact fun p hp => hg p (hplaces ▸ List.mem_cons_of_mem _ hp)
  | started =>
    intro p hp
    rcases List.mem_append.1 hp with hp | hp
    · exact hg p hp
    · obtain rfl := List.mem_singleton.1 hp
      exact (rfl : _ = _)
  | @proceeded now done p rest _ _ hplaces =>
    rw [hplaces, List.forall_mem_append, List.forall_mem_cons] at hg
    obtain ⟨hdone, hp, hrest⟩ := hg
    exact List.forall_mem_append.2 ⟨hdone, List.forall_mem_cons.2 ⟨served_go hp, hrest⟩⟩

theorem keeps_go {P : Call → Prop} {f : σ → β} (hkeeps : env.Keeps P f) {now : Instant} {w : World σ}
    {p : Place σ} (hp : p.Served env) (hcall : ∀ c, p.call? = some c → P c) :
    f (go env now w p).1.state = f w.state := by
  cases p with
  | ready record step since => exact (hkeeps _ _ _ (hcall _ rfl)).1
  | waiting record step wake finish =>
    obtain ⟨-, s, t, rfl⟩ := hp
    exact (hkeeps s t _ (hcall _ rfl)).2 w.state
  | observed record => rfl

/-- A place is due unless its node is observed, or its answer never comes. -/
def Live (g : Gathering σ) : Prop := ∀ p ∈ g.places, p.due? = none → ∃ record, p = .observed record

theorem Steps.live (henv : env.Answers fun c => ∃ node ∈ g.visiting, c.node? = some node)
    (hserved : ∀ p ∈ g.places, p.Served env) (h : g.Steps env g') (hg : g.Live) : g'.Live := by
  cases h with
  | released hplaces => exact fun p hp => hg p (hplaces ▸ List.mem_cons_of_mem _ hp)
  | started =>
    intro p hp hnone
    rcases List.mem_append.1 hp with hp | hp
    · exact hg p hp hnone
    · obtain rfl := List.mem_singleton.1 hp
      cases hnone
  | @proceeded now done p rest _ _ hplaces =>
    unfold Live at hg ⊢
    rw [hplaces, List.forall_mem_append, List.forall_mem_cons] at hg
    obtain ⟨hdone, -, hrest⟩ := hg
    refine List.forall_mem_append.2 ⟨hdone, List.forall_mem_cons.2 ⟨fun hnone => ?_, hrest⟩⟩
    cases p with
    | ready record step since =>
      have hnode : record.node ∈ g.visiting := by
        simp [visiting, hplaces, Place.node]
      have hcall : (step.call record.node).node? = some record.node :=
        hserved (.ready record step since) (by simp [hplaces])
      exact absurd (Option.map_eq_none_iff.1 hnone) (henv g.world.state now _ ⟨_, hnode, hcall⟩)
    | waiting record step wake finish =>
      unfold go settle at hnone ⊢
      dsimp only at hnone ⊢
      split at hnone
      · cases hnone
      · exact ⟨_, rfl⟩
    | observed record => exact ⟨record, rfl⟩

end Gathering

namespace Work

variable {S : Setting σ} {w w' : World σ}

/-- What is shown of a run that has gathered what every step of its gathering keeps. -/
theorem holds_gathered {I : Gathering σ → Prop} (hbegin : I ⟨w, [], S.nodes, #[]⟩)
    (hstep : ∀ g g', I g → g.Steps S.environment g' → I g') : I (gathered S w) :=
  Gathering.holds_run hstep hbegin

theorem keeps_of_ends_gather {f : σ → β} (hkeeps : S.environment.Keeps Observes f)
    {r : Except Stop (List Observation)} (h : gather.Ends S w r w') : f w'.state = f w.state := by
  obtain ⟨-, rfl⟩ := h.unique result?_gather
  refine (holds_gathered (I := fun g => (∀ p ∈ g.places, p.Served S.environment) ∧
    f g.world.state = f w.state) ⟨by simp, rfl⟩ ?_).2
  rintro g g' ⟨hserved, hstate⟩ hstep
  refine ⟨hstep.served hserved, ?_⟩
  cases hstep with
  | released => exact hstate
  | started => exact hstate
  | @proceeded now done p rest _ _ hplaces =>
    have hp : p.Served S.environment := hserved p (by simp [hplaces])
    exact (Gathering.keeps_go hkeeps hp fun c hc => Place.observes_of_call? hc).trans hstate

/-- Where every node of the run answers some time, gathering gives its records. -/
theorem ends_gather_of_answers
    (henv : S.environment.Answers fun c => ∃ node ∈ S.nodes, c.node? = some node) (w : World σ) :
    ∃ records w', gather.Ends S w (.ok records) w' := by
  have hlive : (gathered S w).Live := by
    refine (holds_gathered (I := fun g => g.visiting = S.nodes ∧
      (∀ p ∈ g.places, p.Served S.environment) ∧ g.Live) ?_ ?_).2.2
    · exact ⟨by simp [Gathering.visiting], by simp, by simp [Gathering.Live]⟩
    · rintro g g' ⟨hnodes, hserved, hlive⟩ hstep
      exact ⟨hstep.visiting_eq.trans hnodes, hstep.served hserved,
        hstep.live (hnodes.symm ▸ henv) hserved hlive⟩
  obtain ⟨hhead, hdue⟩ := Gathering.stuck_run S.environment ⟨w, [], S.nodes, #[]⟩
  have hempty : (gathered S w).places = [] := by
    cases hplaces : (gathered S w).places with
    | nil => rfl
    | cons p rest =>
      have hp : p ∈ (gathered S w).places := by simp [hplaces]
      obtain ⟨record, rfl⟩ := hlive p hp (hdue p hp)
      exact absurd hplaces (hhead record rest)
  refine ⟨(gathered S w).records.toList, (gathered S w).world, result?_gather.trans ?_⟩
  rw [hempty, List.isEmpty_nil, if_pos rfl]

end Work
end Rollout
