import Rollout.Run.Observation

/-!
# Gathering

Observing every node of a run. At most sixteen nodes have a place at a time. Nodes take places in
visiting order, and a place is given back in that order too: a node that is done behind one that is
not keeps its place. `Gathering` is the state between two steps of this process, `Gathering.next?` the
step: give back the first place, fill a free place, or let the node that is due first go on. Every step
makes the outstanding work smaller, so gathering ends unless an answer never comes.
-/

namespace Rollout

/-- How many nodes are observed at once. -/
def gatherWidth : Nat := 16

/-- A place: a node about to make its next call, waiting for an answer, or observed. -/
inductive Place (σ : Type) where
  | ready (record : Observation) (step : Observation.Step) (since : Instant)
  | waiting (record : Observation) (step : Observation.Step) (wake : Option Instant)
      (finish : σ → σ × (step.call record.node).Result)
  | observed (record : Observation)

namespace Place

variable {σ : Type}

def due? : Place σ → Option Instant
  | ready _ _ since => some since
  | waiting _ _ wake _ => wake
  | observed _ => none

/-- The steps the place still needs, its release included. -/
def weight : Place σ → Nat
  | ready _ step _ => 2 * step.remaining + 1
  | waiting _ step _ _ => 2 * step.remaining
  | observed _ => 1

end Place

structure Gathering (σ : Type) where
  world : World σ
  /-- In visiting order. -/
  places : List (Place σ)
  unstarted : List Node
  /-- Records given out, in visiting order. -/
  records : Array Observation := #[]

namespace Gathering

variable {σ : Type}

def totalWeight : List (Place σ) → Nat
  | [] => 0
  | p :: rest => p.weight + totalWeight rest

theorem totalWeight_append (places : List (Place σ)) (p : Place σ) :
    totalWeight (places ++ [p]) = totalWeight places + p.weight := by
  induction places with
  | nil => simp [totalWeight]
  | cons q rest ih => simp [totalWeight, ih, Nat.add_assoc]

def weight (g : Gathering σ) : Nat :=
  totalWeight g.places + 12 * g.unstarted.length

/-- The earliest time at which a place can go on. -/
def nextTime? (places : List (Place σ)) : Option Instant :=
  (places.filterMap Place.due?).min?

/-- The place after `record` has been advanced. -/
def settle (now : Instant) : Observation.Advance → Place σ
  | (record, some step) => .ready record step now
  | (record, none) => .observed record

/-- What a place does when it is due at `now`: make its call, or take in the answer. -/
def go (env : Environment σ) (now : Instant) (w : World σ) : Place σ → World σ × Place σ
  | .ready record step _ =>
    let call := step.call record.node
    let service := env.serve w.state now call
    ({ w with now, state := service.begun, journal := w.journal.push (.sent now call) },
      .waiting record step (service.delay.map (now + ·)) service.finish)
  | .waiting record step _ finish =>
    let (state, result) := finish w.state
    let journal := w.journal.push (.answered now (step.call record.node) result)
    let number := w.connections
    let connections := if record.connected step result then number + 1 else number
    ({ w with now, state, journal, connections }, settle now (record.advance number step result))
  | .observed record => (w, .observed record)

/-- Lets the first place that is due at `now` go on. -/
def goFirst (env : Environment σ) (now : Instant) (w : World σ) :
    List (Place σ) → World σ × List (Place σ)
  | [] => (w, [])
  | p :: rest =>
    if p.due? = some now then
      let (w, p) := go env now w p
      (w, p :: rest)
    else
      let (w, rest) := goFirst env now w rest
      (w, p :: rest)

/-- Gives back the first place if its node is observed. -/
def release? (g : Gathering σ) : Option (Gathering σ) :=
  match g.places with
  | .observed record :: places => some { g with places, records := g.records.push record }
  | _ => none

/-- Gives the next node a place if there is one. -/
def start? (g : Gathering σ) : Option (Gathering σ) :=
  match g.unstarted with
  | node :: unstarted =>
    if g.places.length < gatherWidth then
      some { g with places := g.places ++ [.ready { node } .connect g.world.now], unstarted }
    else none
  | [] => none

/-- Lets the node that is due first go on, at its time. -/
def proceed? (env : Environment σ) (g : Gathering σ) : Option (Gathering σ) :=
  (nextTime? g.places).map fun now =>
    let (world, places) := goFirst env now g.world g.places
    { g with world, places }

/-- One step; none when there is nothing left to do or to wait for. -/
def next? (env : Environment σ) (g : Gathering σ) : Option (Gathering σ) :=
  (g.release?.or g.start?).or (g.proceed? env)

theorem weight_settle (now : Instant) (record : Observation) (number : Nat)
    (step : Observation.Step) (result : (step.call record.node).Result) :
    (settle (σ := σ) now (record.advance number step result)).weight < 2 * step.remaining := by
  have hpos := step.remaining_pos
  cases h : (record.advance number step result) with
  | mk o s =>
    cases s with
    | none => simp [settle, Place.weight]; omega
    | some next =>
      have := record.remaining_advance number step result next (by rw [h])
      simp only [settle, Place.weight]
      omega

theorem weight_go (env : Environment σ) (now : Instant) (w : World σ) (p : Place σ)
    (h : p.due? = some now) : (go env now w p).2.weight < p.weight := by
  cases p with
  | ready record step since => simp [go, Place.weight]
  | waiting record step wake finish => exact weight_settle ..
  | observed record => simp [Place.due?] at h

theorem weight_goFirst (env : Environment σ) (now : Instant) (w : World σ) (places : List (Place σ))
    (h : ∃ p ∈ places, p.due? = some now) :
    totalWeight (goFirst env now w places).2 < totalWeight places := by
  induction places with
  | nil => simp at h
  | cons p rest ih =>
    unfold goFirst
    by_cases hp : p.due? = some now
    · have := weight_go env now w p hp
      simp only [hp, ↓reduceIte, totalWeight]
      omega
    · have := ih (by
        obtain ⟨q, hq, hd⟩ := h
        rcases List.mem_cons.1 hq with rfl | hq
        · exact absurd hd hp
        · exact ⟨q, hq, hd⟩)
      simp only [hp, ↓reduceIte, totalWeight]
      omega

theorem exists_due {places : List (Place σ)} {now : Instant} (h : nextTime? places = some now) :
    ∃ p ∈ places, p.due? = some now := by
  have := List.min?_mem h
  simpa [List.mem_filterMap] using this

theorem weight_release? {g g' : Gathering σ} (h : g.release? = some g') : g'.weight < g.weight := by
  obtain ⟨world, places, unstarted, records⟩ := g
  unfold release? at h
  split at h
  · next record rest hp =>
    cases h
    simp only at hp
    simp only [weight, hp, totalWeight, Place.weight]
    omega
  · simp at h

theorem weight_start? {g g' : Gathering σ} (h : g.start? = some g') : g'.weight < g.weight := by
  obtain ⟨world, places, unstarted, records⟩ := g
  unfold start? at h
  split at h
  · next node rest hu =>
    split at h
    · cases h
      simp only at hu
      simp only [weight, hu, totalWeight_append, Place.weight, Observation.Step.remaining,
        List.length_cons]
      omega
    · simp at h
  · simp at h

theorem weight_proceed? {env : Environment σ} {g g' : Gathering σ} (h : g.proceed? env = some g') :
    g'.weight < g.weight := by
  obtain ⟨now, hn, rfl⟩ := Option.map_eq_some_iff.1 h
  have := weight_goFirst env now g.world g.places (exists_due hn)
  simp only [weight]
  omega

theorem weight_next? {env : Environment σ} {g g' : Gathering σ} (h : g.next? env = some g') :
    g'.weight < g.weight := by
  unfold next? at h
  rcases Option.or_eq_some_iff.1 h with h | ⟨_, h⟩
  · rcases Option.or_eq_some_iff.1 h with h | ⟨_, h⟩
    · exact weight_release? h
    · exact weight_start? h
  · exact weight_proceed? h

def run (env : Environment σ) (g : Gathering σ) : Gathering σ :=
  match _h : g.next? env with
  | none => g
  | some g' => run env g'
termination_by g.weight
decreasing_by exact weight_next? (by assumption)

end Gathering

namespace Work

variable {σ : Type}

/-- Observes the nodes of the run, sixteen at a time, and gives the records in visiting order. -/
def gather : Work σ (List Observation) := do
  let setting ← read
  let g := Gathering.run setting.environment ⟨← get, [], setting.nodes, #[]⟩
  set g.world
  if g.places.isEmpty then return g.records.toList
  throw .overdue

end Work
end Rollout
