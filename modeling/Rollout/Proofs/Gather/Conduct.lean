import Rollout.Proofs.Gather.Places

/-!
# Nodes by themselves

`Conduct` is a node seen by itself: what it does when it is called depends on its own state alone, not on the
time, on the number of the connection or on anybody else. `Environment.Conducts` says that a node behaves so
in a world with others in it. What gathering learns of such a node, and how it leaves it, is then a
function of its conduct: `Conduct.reading`.
-/

namespace Rollout

variable {σ τ : Type}

/-- How a node takes a call, in the parts a service has. -/
structure Reaction (τ α : Type) where
  begun : τ
  finish : τ → τ × α

def Reaction.outcome {α : Type} (reaction : Reaction τ α) : τ × α := reaction.finish reaction.begun

/-- How a node with the states `τ` takes its calls. -/
structure Conduct (τ : Type) where
  connect : τ → Reaction τ (Except Error Channel)
  render : τ → Reaction τ (Except Error Bytes)
  request : τ → Channel → (q : Request) → Reaction τ (Except ApiError q.Reply)

/-- Seen through `view`, a call is served as the reaction says. -/
structure Service.Shows {c : Call} (service : Service σ c) (view : σ → τ)
    (reaction : Reaction τ c.Result) : Prop where
  begun : view service.begun = reaction.begun
  state : ∀ s, view (service.finish s).1 = (reaction.finish (view s)).1
  answer : ∀ s, (service.finish s).2 = (reaction.finish (view s)).2

/-- A call to somebody else than the node, be it another host or the operator. -/
def Call.Apart (node : Node) (c : Call) : Prop := ∀ n, c.node? = some n → n.host ≠ node.host

/-- In this world the node conducts itself so: `view` shows its state, its own calls are served as `conduct`
says, and no others touch it. -/
structure Environment.Conducts (env : Environment σ) (node : Node) (view : σ → τ) (conduct : Conduct τ) :
    Prop where
  connect : ∀ s t, (env.serve s t (.connect node)).Shows view (conduct.connect (view s))
  render : ∀ s t, (env.serve s t (.render node)).Shows view (conduct.render (view s))
  request : ∀ s t client q, client.node = node →
    (env.serve s t (.request client q)).Shows view (conduct.request (view s) client.channel q)
  apart : env.Keeps (Call.Apart node) view

theorem Service.Shows.respond {env : Environment σ} {s s₁ : σ} {t : Instant} {c : Call} {a : c.Result}
    {view : σ → τ} {reaction : Reaction τ c.Result} (h : (env.serve s t c).Shows view reaction)
    (hresponse : env.respond s t c = (s₁, a)) : reaction.outcome = (view s₁, a) := by
  have hstate := congrArg (fun x => (view x.1, x.2)) hresponse
  rw [← hstate]
  unfold Environment.respond Reaction.outcome
  rw [← h.begun]
  exact Prod.ext (h.state _).symm (h.answer _).symm

namespace Conduct

variable (conduct : Conduct τ) (node : Node)

def react (v : τ) : (step : Observation.Step) → Reaction τ (step.call node).Result
  | .connect => conduct.connect v
  | .status client => conduct.request v client.channel .status
  | .extensions client => conduct.request v client.channel .extensions
  | .osVersion client => conduct.request v client.channel .osVersion
  | .render => conduct.render v

/-- What the rest of observing comes to, from a step on: the record and the state of the node. Which
number its connection has does not matter. -/
def observe (o : Observation) (v : τ) (step : Observation.Step) : Observation × τ :=
  let outcome := (conduct.react o.node v step).outcome
  match _h : o.advance 0 step outcome.2 with
  | (o', none) => (o', outcome.1)
  | (o', some next) => observe o' outcome.1 next
termination_by step.remaining
decreasing_by
  have := o.remaining_advance 0 step _ next (by rw [_h])
  omega

def observeFrom : Observation.Advance → τ → Observation × τ
  | (o, none), v => (o, v)
  | (o, some step), v => conduct.observe o v step

def reading (v : τ) : Observation × τ := conduct.observe { node } v .connect

variable {conduct node} {o : Observation} {v : τ}

theorem observe_eq (step : Observation.Step) :
    conduct.observe o v step =
      conduct.observeFrom (o.advance 0 step (conduct.react o.node v step).outcome.2)
        (conduct.react o.node v step).outcome.1 := by
  rw [observe]
  split <;> next h => rw [h]; rfl

/-! The number of a connection shows in no record. -/

section

variable {c c' : Client}

theorem observe_osVersion_congr (h : c.channel = c'.channel) :
    conduct.observe o v (.osVersion c) = conduct.observe o v (.osVersion c') := by
  rw [observe_eq, observe_eq]
  simp only [react, h]
  cases (conduct.request v c'.channel .osVersion).outcome.2 <;> rfl

theorem observe_extensions_congr (h : c.channel = c'.channel) :
    conduct.observe o v (.extensions c) = conduct.observe o v (.extensions c') := by
  rw [observe_eq, observe_eq]
  simp only [react, h]
  cases (conduct.request v c'.channel .extensions).outcome.2 with
  | error e => rfl
  | ok extensions => exact observe_osVersion_congr h

theorem observe_status_congr (h : c.channel = c'.channel) :
    conduct.observe o v (.status c) = conduct.observe o v (.status c') := by
  rw [observe_eq, observe_eq]
  simp only [react, h]
  cases (conduct.request v c'.channel .status).outcome.2 with
  | error e => rfl
  | ok status => exact observe_extensions_congr h

theorem observeFrom_advance (number : Nat) (step : Observation.Step)
    (result : (step.call o.node).Result) :
    conduct.observeFrom (o.advance number step result) v =
      conduct.observeFrom (o.advance 0 step result) v := by
  cases step with
  | connect =>
    cases result with
    | error e => rfl
    | ok channel => exact observe_status_congr rfl
  | status client => cases result <;> rfl
  | extensions client => cases result <;> rfl
  | osVersion client => cases result <;> rfl
  | render => cases result <;> rfl

end
end Conduct

theorem Environment.Conducts.shows {env : Environment σ} {node : Node} {view : σ → τ} {conduct : Conduct τ}
    (h : env.Conducts node view conduct) {step : Observation.Step}
    (hstep : (step.call node).node? = some node) (s : σ) (t : Instant) :
    (env.serve s t (step.call node)).Shows view (conduct.react node (view s) step) := by
  cases step with
  | connect => exact h.connect s t
  | render => exact h.render s t
  | status client => exact h.request s t client _ (Option.some.inj hstep)
  | extensions client => exact h.request s t client _ (Option.some.inj hstep)
  | osVersion client => exact h.request s t client _ (Option.some.inj hstep)

/-- Left to itself from here, observing the node of the place comes to `goal`. -/
def Place.Heads (env : Environment σ) (view : σ → τ) (conduct : Conduct τ) (goal : Observation × τ)
    (s : σ) : Place σ → Prop
  | ready record step _ => conduct.observe record (view s) step = goal
  | waiting record step _ finish =>
    ∃ s₀ t₀, finish = (env.serve s₀ t₀ (step.call record.node)).finish ∧
      view s = view (env.serve s₀ t₀ (step.call record.node)).begun ∧
      conduct.observe record (view s₀) step = goal
  | observed record => (record, view s) = goal

namespace Place.Heads

variable {env : Environment σ} {view : σ → τ} {conduct : Conduct τ} {goal : Observation × τ} {p : Place σ}

theorem congr {s s' : σ} (h : p.Heads env view conduct goal s) (hs : view s' = view s) :
    p.Heads env view conduct goal s' := by
  cases p with
  | ready record step since =>
    unfold Heads
    rwa [hs]
  | waiting record step wake finish =>
    unfold Heads
    rwa [hs]
  | observed record =>
    unfold Heads
    rwa [hs]

theorem go {now : Instant} {w : World σ} (hconducts : env.Conducts p.node view conduct)
    (hserved : p.Served env) (h : p.Heads env view conduct goal w.state) :
    (Gathering.go env now w p).2.Heads env view conduct goal (Gathering.go env now w p).1.state := by
  cases p with
  | ready record step since => exact ⟨w.state, now, rfl, rfl, h⟩
  | waiting record step wake finish =>
    obtain ⟨s₀, t₀, rfl, hview, hgoal⟩ := h
    have hshows : (env.serve s₀ t₀ (step.call record.node)).Shows view
        (conduct.react record.node (view s₀) step) := hconducts.shows hserved.1 s₀ t₀
    have houtcome : (conduct.react record.node (view s₀) step).outcome =
        (view ((env.serve s₀ t₀ (step.call record.node)).finish w.state).1,
          ((env.serve s₀ t₀ (step.call record.node)).finish w.state).2) := by
      unfold Reaction.outcome
      rw [← hshows.begun, ← hview]
      exact Prod.ext (hshows.state w.state).symm (hshows.answer w.state).symm
    have hrest := hgoal
    rw [Conduct.observe_eq, houtcome, ← Conduct.observeFrom_advance w.connections] at hrest
    unfold Gathering.go Gathering.settle
    dsimp only at hrest ⊢
    split
    · next hadvance =>
      rw [hadvance] at hrest
      exact hrest
    · next hadvance =>
      rw [hadvance] at hrest
      exact hrest
  | observed record => exact h

end Place.Heads

namespace Gathering

variable {env : Environment σ} {node : Node} {view : σ → τ} {conduct : Conduct τ}
  {goal : Observation × τ}

/-- The node has not begun and is as it was, or it is on its way to `goal`. -/
structure Conducted (env : Environment σ) (node : Node) (view : σ → τ) (conduct : Conduct τ) (v : τ)
    (g : Gathering σ) : Prop where
  nodup : (g.visiting.map (·.host)).Nodup
  served : ∀ p ∈ g.places, p.Served env
  waits : node ∈ g.unstarted → view g.world.state = v
  heads : ∀ p ∈ g.begun, p.node = node →
    p.Heads env view conduct (conduct.reading node v) g.world.state

theorem Conducted.host_ne {v : τ} {g : Gathering σ} (h : g.Conducted env node view conduct v)
    {done : List (Place σ)} {p : Place σ} {rest : List (Place σ)} (hbegun : g.begun = done ++ p :: rest) :
    (∀ q ∈ done ++ rest, q.node.host ≠ p.node.host) ∧ ∀ n ∈ g.unstarted, n.host ≠ p.node.host := by
  have hnodup := h.nodup
  rw [visiting_eq, hbegun] at hnodup
  have hsplit : ((done ++ p :: rest).map Place.node ++ g.unstarted) =
      done.map Place.node ++ p.node :: (rest.map Place.node ++ g.unstarted) := by simp
  rw [hsplit] at hnodup
  have hother := ne_of_nodup_middle hnodup
  constructor
  · intro q hq
    refine hother q.node ?_
    rcases List.mem_append.1 hq with hq | hq
    · exact List.mem_append_left _ (List.mem_map_of_mem hq)
    · exact List.mem_append_right _ (List.mem_append_left _ (List.mem_map_of_mem hq))
  · intro n hn
    exact hother n (List.mem_append_right _ (List.mem_append_right _ hn))

theorem Conducted.step (hconducts : env.Conducts node view conduct) {v : τ} {g g' : Gathering σ}
    (hg : g.Conducted env node view conduct v) (h : g.Steps env g') :
    g'.Conducted env node view conduct v := by
  have hserved := h.served hg.served
  have hnodup : (g'.visiting.map (·.host)).Nodup := h.visiting_eq ▸ hg.nodup
  cases h with
  | released hplaces => exact ⟨hnodup, hserved, hg.waits, begun_released hplaces ▸ hg.heads⟩
  | @started next unstarted _ hunstarted =>
    refine ⟨hnodup, hserved, fun hnode => hg.waits (hunstarted ▸ List.mem_cons_of_mem _ hnode), ?_⟩
    rw [begun_started]
    intro p hp hnode
    rcases List.mem_append.1 hp with hp | hp
    · exact hg.heads p hp hnode
    · obtain rfl := List.mem_singleton.1 hp
      obtain rfl : next = node := hnode
      have hview := hg.waits (hunstarted ▸ List.mem_cons_self)
      exact (congrArg (conduct.observe _ · _) hview : _ = _)
  | @proceeded now done p rest _ _ hplaces =>
    have hbegun := begun_eq_append hplaces
    obtain ⟨hplaced, hunstarted⟩ := hg.host_ne hbegun
    have hp : p.Served env := hg.served p (by simp [hplaces])
    -- Whoever goes on is the node itself, or leaves it alone.
    have hapart (hne : p.node.host ≠ node.host) :
        view (go env now g.world p).1.state = view g.world.state := by
      refine keeps_go hconducts.apart hp fun c hc n hn => ?_
      have hsame : n = p.node := Option.some.inj (hn.symm.trans (hp.node?_eq hc))
      exact hsame ▸ hne
    refine ⟨hnodup, hserved, fun hnode => ?_, ?_⟩
    · exact (hapart fun heq => hunstarted node hnode heq.symm).trans (hg.waits hnode)
    rw [begun_eq_append rfl]
    intro q hq hnode
    rcases List.mem_cons.1 (List.perm_middle.mem_iff.1 hq) with rfl | hq
    · rw [node_go] at hnode
      subst hnode
      exact (hg.heads p (by simp [hbegun]) rfl).go hconducts hp
    · have hne : p.node.host ≠ node.host := fun heq =>
        hplaced q hq ((congrArg Node.host hnode).trans heq.symm)
      have hmem : q ∈ g.begun := hbegun ▸ List.perm_middle.mem_iff.2 (List.mem_cons_of_mem _ hq)
      exact (hg.heads q hmem hnode).congr (hapart hne)

end Gathering

namespace Work

variable {S : Setting σ} {w w' : World σ} {node : Node} {view : σ → τ} {conduct : Conduct τ}
  {records : List Observation}

/-- Gathering learns of a node what its conduct says, and leaves it as its conduct says, whatever the other
nodes do. -/
theorem reading_of_ends_gather (hhosts : (S.nodes.map (·.host)).Nodup)
    (hconducts : S.environment.Conducts node view conduct) (h : gather.Ends S w (.ok records) w')
    {o : Observation} (ho : o ∈ records) (hnode : o.node = node) :
    (o, view w'.state) = conduct.reading node (view w.state) := by
  obtain ⟨hr, rfl⟩ := h.unique result?_gather
  have hend : (gathered S w).Conducted S.environment node view conduct (view w.state) := by
    refine holds_gathered ⟨?_, by simp, fun _ => rfl, by simp [Gathering.begun]⟩
      fun g g' hg hstep => hg.step hconducts hstep
    simpa [Gathering.visiting] using hhosts
  split at hr
  · cases hr
    refine hend.heads (.observed o) ?_ hnode
    exact List.mem_append_left _ (List.mem_map_of_mem ho)
  · cases hr

theorem readings_of_ends_gather {view : Node → σ → τ} {conduct : Node → Conduct τ}
    (hhosts : (S.nodes.map (·.host)).Nodup)
    (hconducts : ∀ node ∈ S.nodes, S.environment.Conducts node (view node) (conduct node))
    (h : gather.Ends S w (.ok records) w') :
    records.map (fun o => (o, view o.node w'.state)) =
      S.nodes.map fun node => (conduct node).reading node (view node w.state) := by
  have hnodes := nodes_of_ends_gather h
  rw [← hnodes, List.map_map]
  refine List.map_congr_left fun o ho => ?_
  have hmem : o.node ∈ S.nodes := hnodes ▸ List.mem_map_of_mem ho
  exact reading_of_ends_gather hhosts (hconducts _ hmem) h ho rfl

end Work

/-! ## A world of such nodes -/

namespace Reaction

variable {c : Call} (reaction : Reaction τ c.Result) (host : String)

/-- The call as served where every host has its own state. -/
def served (delay : Duration) (s : String → τ) : Service (String → τ) c where
  begun := Function.update s host reaction.begun
  delay := some delay
  finish s :=
    let (v, answer) := reaction.finish (s host)
    (Function.update s host v, answer)

variable {reaction host} {delay : Duration} {s : String → τ}

theorem shows_served : (reaction.served host delay s).Shows (· host) reaction where
  begun := Function.update_self ..
  state _ := Function.update_self ..
  answer _ := rfl

theorem served_apart {other : String} (h : host ≠ other) :
    (reaction.served host delay s).begun other = s other ∧
      ∀ s', ((reaction.served host delay s).finish s').1 other = s' other :=
  ⟨Function.update_of_ne h.symm .., fun _ => Function.update_of_ne h.symm ..⟩

theorem served_keeps {other : String}
    (h : host = other → reaction.begun = s host ∧ ∀ v, (reaction.finish v).1 = v) :
    (reaction.served host delay s).begun other = s other ∧
      ∀ s', ((reaction.served host delay s).finish s').1 other = s' other := by
  by_cases hhost : host = other
  · subst hhost
    obtain ⟨hbegun, hfinish⟩ := h rfl
    exact ⟨shows_served.begun.trans hbegun, fun s' => (shows_served.state s').trans (hfinish _)⟩
  · exact served_apart hhost

end Reaction

/-- A world in which every host has a conduct, each call takes its time, and the operator has decided on
every question. -/
def Conduct.world (conduct : String → Conduct τ) (delay : Call → Duration)
    (operator : String → Except Error Bool) : Environment (String → τ) where
  serve s _
    | .connect node =>
      ((conduct node.host).connect (s node.host)).served node.host (delay (.connect node)) s
    | .render node =>
      ((conduct node.host).render (s node.host)).served node.host (delay (.render node)) s
    | .request client q =>
      ((conduct client.node.host).request (s client.node.host) client.channel q).served client.node.host
        (delay (.request client q)) s
    | .display text => ⟨s, some (delay (.display text)), fun s => (s, .ok ())⟩
    | .ask question => ⟨s, some (delay (.ask question)), fun s => (s, operator question)⟩

namespace Conduct

variable {conduct : String → Conduct τ} {delay : Call → Duration}
  {operator : String → Except Error Bool}

theorem conducts_world (node : Node) :
    (world conduct delay operator).Conducts node (· node.host) (conduct node.host) where
  connect _ _ := Reaction.shows_served
  render _ _ := Reaction.shows_served
  request s t client q hclient := by
    subst hclient
    exact Reaction.shows_served
  apart s t c hc := by
    cases c with
    | connect n => exact Reaction.served_apart (hc n rfl)
    | render n => exact Reaction.served_apart (hc n rfl)
    | request client q => exact Reaction.served_apart (hc client.node rfl)
    | display text => exact ⟨rfl, fun _ => rfl⟩
    | ask question => exact ⟨rfl, fun _ => rfl⟩

theorem answers_world (P : Call → Prop) : (world conduct delay operator).Answers P := by
  intro s t c _
  cases c <;> exact Option.some_ne_none _

end Conduct
end Rollout
