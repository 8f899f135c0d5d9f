import Rollout.Proofs.Apply.Run
import Rollout.Proofs.Bootstrap.Course

/-!
# The phases of a bootstrap

A node may only be provisioned if all are fresh, etcd is started when every node has its configuration,
and nothing is watched before etcd is started. `BootstrapPhases` says this of any place in the journal
where a call of a phase stands, of the error a bootstrap stops with, and of its success.
-/

namespace Rollout

variable {σ : Type} {S : Setting σ} {confirm : Bool} {first : Node} {w w' : World σ}

/-- A call that provisions a node: it is sent a configuration, or told to start etcd. -/
def Call.Provisions (c : Call) : Prop :=
  ∃ client, (∃ data dryRun, c = .request client (.applyConfiguration data dryRun)) ∨
    c = .request client .bootstrap

/-- A request about etcd. -/
def Call.Coordinates (c : Call) : Prop :=
  ∃ client, c = .request client (.serviceState "etcd") ∨ c = .request client .bootstrap ∨
    c = .request client .etcdMembers

/-- The run has gathered all nodes by `w₁`, and all were observed, are ready and in maintenance. -/
inductive Fresh (S : Setting σ) (w : World σ) (gathered : List Entry) (records : List Observation)
    (w₁ : World σ) : Prop
  | intro (hgather : Work.gather.Ends S w (.ok records) w₁) (hgathered : w.Gains w₁ gathered)
      (hnodes : records.map (·.node) = S.nodes)
      (hfresh : ∀ o ∈ records,
        o.failure = none ∧ o.readiness.ready = true ∧ o.stage = .maintenance) :
      Fresh S w gathered records w₁

/-- All nodes are fresh and have had their turns without an error by `v`; `front` is all that the run has
left in the journal. -/
inductive Applied (S : Setting σ) (confirm : Bool) (w : World σ) (front : List Entry) (v : World σ) :
    Prop
  | intro {gathered records w₁ as} (hfresh : Fresh S w gathered records w₁)
      (hturns : Series (applyTurns S { confirm } false) records w₁ as v) (hfront : w.Gains v front) :
      Applied S confirm w front v

theorem Applied.gains {front : List Entry} {v : World σ} (h : Applied S confirm w front v) :
    w.Gains v front := by
  obtain ⟨-, -, hfront⟩ := h
  exact hfront

/-- After the turns the coordinator has succeeded by `u`, having called only the first node. -/
inductive Coordinated (S : Setting σ) (confirm : Bool) (first : Node) (w : World σ)
    (front : List Entry) (u : World σ) : Prop
  | intro {applied v etcd es} (happlied : Applied S confirm w applied v)
      (hetcd : (Work.ensureEtcd S.nodes).Ends S v (.ok etcd) u) (hes : v.Gains u es)
      (hfirst : ∀ e ∈ es, e.call.node? = some first) (hfront : front = applied ++ es) :
      Coordinated S confirm first w front u

/-- Where a bootstrap stops: the run ends in the world `w'` in which what failed ended, and no turn and
no phase follows. -/
inductive BootstrapStops (S : Setting σ) (confirm : Bool) (first : Node) (w : World σ) (stop : Stop)
    (w' : World σ) : Prop
  | unobserved (hgather : Work.gather.Ends S w (.error stop) w')
  | notFresh {records e} (hgather : Work.gather.Ends S w (.ok records) w')
      (hcheck : Policy.bootstrap.check records = .error e) (hstop : stop = .error e)
  | unapplied {gathered records w₁ front o later v} (hfresh : Fresh S w gathered records w₁)
      (hbegins : TurnBegins (applyTurns S { confirm } false) records w₁ front o later v)
      (hturn : (Work.applyTurn { confirm } false o).Ends S v (.error stop) w')
  | unstarted {front v es} (happlied : Applied S confirm w front v)
      (hetcd : (Work.ensureEtcd S.nodes).Ends S v (.error stop) w') (hes : v.Gains w' es)
      (hfirst : ∀ e ∈ es, e.call.node? = some first)
  | unstable {front u ahead node later v} (hstarted : Coordinated S confirm first w front u)
      (hbegins : TurnBegins (watchTurns S) S.nodes u ahead node later v)
      (hwatch : (Work.waitStable node stableWindow).Ends S v (.error stop) w')

/-- What holds of everything a bootstrap leaves in the journal, and of its result, when its first node is
a control-plane node. -/
structure BootstrapPhases (S : Setting σ) (confirm : Bool) (first : Node) (w : World σ)
    (log : List Entry) (r : Except Stop BootstrapReport) (w' : World σ) : Prop where
  /-- No node is provisioned unless all are fresh. -/
  fresh : ∀ before e after, log = before ++ e :: after → e.call.Provisions →
    ∃ gathered records w₁, Fresh S w gathered records w₁ ∧ gathered <+: before
  /-- Etcd is only asked about when all turns are over, and only on the first node. -/
  coordinated : ∀ before e after, log = before ++ e :: after → e.call.Coordinates →
    e.call.node? = some first ∧ ∃ front v, Applied S confirm w front v ∧ front <+: before
  /-- No events are subscribed to before the coordinator has succeeded, and then by one node after the
  other. -/
  watched : ∀ before e after, log = before ++ e :: after → e.call.Subscribes →
    ∃ front u ahead node later v, Coordinated S confirm first w front u ∧
      TurnBegins (watchTurns S) S.nodes u ahead node later v ∧ e.call.node? = some node ∧
      front ++ ahead <+: before
  stopped : ∀ stop, r = .error stop → BootstrapStops S confirm first w stop w'
  /-- After the coordinator every node has been healthy for a whole window. -/
  stable : ∀ report, r = .ok report → ∃ front u, Coordinated S confirm first w front u ∧
    ∀ node ∈ S.nodes, ∃ v v', u.Extends (fun c => ∃ node ∈ S.nodes, Watches node c) v ∧
      Qualifies S.environment node stableWindow v v' ∧
      v'.Extends (fun c => ∃ node ∈ S.nodes, Watches node c) w'

/-! ## The first node -/

theorem checkSeed_eq_ok_iff {nodes : List Node} :
    checkSeed nodes = .ok () ↔ ∃ first rest, nodes = first :: rest ∧ first.isControlPlane = true := by
  unfold checkSeed
  cases nodes with
  | nil => simp
  | cons first rest =>
    by_cases hfirst : first.isControlPlane = true <;> simp [hfirst]

theorem config_of_checkSeed {nodes : List Node} {e : Error} (h : checkSeed nodes = .error e) :
    ∃ message, e = .config message := by
  unfold checkSeed at h
  split at h
  · cases h
    exact ⟨_, rfl⟩
  · split at h
    · cases h
    · cases h
      exact ⟨_, rfl⟩

theorem seed?_cons {rest : List Node} (hfirst : first.isControlPlane = true) :
    seed? (first :: rest) = some first := by
  simp [seed?, hfirst]

theorem fresh_of_passes {gathered : List Entry} {eligible : List Observation} {w₁ : World σ}
    (h : Passes .bootstrap S w gathered eligible w₁) : Fresh S w gathered eligible w₁ := by
  cases h with
  | @intro records hgather hgathered hcheck =>
    have hverdict := Policy.bootstrap.check_verdict records
    rw [hcheck] at hverdict
    cases hverdict with
    | passed hsome hrest =>
      have hall : ∀ o ∈ records, Policy.bootstrap.Eligible o := by
        rcases hrest with hskip | hall
        · cases hskip
        · exact hall
      have hsame : (records.filter fun o => decide (Policy.bootstrap.Eligible o)) = records :=
        List.filter_eq_self.2 fun o ho => decide_eq_true (hall o ho)
      rw [hsame]
      refine .intro hgather hgathered (Work.nodes_of_ends_gather hgather) fun o ho => ?_
      obtain ⟨hobserved, hready, hstage⟩ := hall o ho
      exact ⟨hobserved, hready rfl, List.mem_singleton.1 hstage⟩

/-- The coordinator calls the first node and no other. -/
theorem exists_startsEtcd (hlimit : S.limit = none) {rest : List Node} (hnodes : S.nodes = first :: rest)
    (hfirst : first.isControlPlane = true) {r : Except Stop EtcdOutcome}
    (h : (Work.ensureEtcd S.nodes).Ends S w r w') :
    ∃ es, w.Gains w' es ∧ ∀ e ∈ es, StartsEtcd first e.call := by
  unfold Work.ensureEtcd at h
  rw [hnodes, seed?_cons hfirst] at h
  have hpause : 0 < Duration.seconds 5 := by decide
  have hattempt (S : Setting σ) : (Work.etcdAttempt first).Runs S (StartsEtcd first) :=
    Work.Runs.etcdAttempt
  have hruns := Work.Runs.retryOrFail (b := etcdBudget) hlimit hpause hattempt .bootstrap
  obtain ⟨es, hes, hall⟩ := (h.extends hruns).gains
  exact ⟨es, hes, fun e he => (hall e he).1⟩

/-! ## The journal phase by phase -/

theorem Observes.not_provisions {c : Call} (h : Observes c) : ¬ c.Provisions := by
  obtain ⟨node, step, rfl⟩ := h
  rintro ⟨client, ⟨data, dryRun, h⟩ | h⟩ <;> cases step <;> cases h

theorem Observes.not_coordinates {c : Call} (h : Observes c) : ¬ c.Coordinates := by
  obtain ⟨node, step, rfl⟩ := h
  rintro ⟨client, h | h | h⟩ <;> cases step <;> cases h

theorem Applies.not_coordinates {node : Node} {c : Call} (h : Applies node c) : ¬ c.Coordinates := by
  rintro ⟨client, rfl | rfl | rfl⟩ <;>
    rcases h with h | ⟨client', data, dryRun, -, h⟩ | h <;> cases h

theorem Watches.not_coordinates {node : Node} {c : Call} (h : Watches node c) : ¬ c.Coordinates := by
  rintro ⟨client, rfl | rfl | rfl⟩ <;>
    rcases h with h | ⟨client', -, h | h⟩ <;> cases h

theorem Watches.node?_eq {node : Node} {c : Call} (h : Watches node c) : c.node? = some node := by
  rcases h with rfl | ⟨client, rfl, rfl | rfl⟩ <;> rfl

/-- The journal of a bootstrap in four pieces. A phase leaves nothing unless those before it have
succeeded. -/
structure Phased (S : Setting σ) (confirm : Bool) (first : Node) (w : World σ)
    (gathered applied coordinated watched : List Entry) (w' : World σ) : Prop where
  observes : ∀ e ∈ gathered, Observes e.call
  applies : ∀ e ∈ applied, ∃ node, Applies node e.call
  starts : ∀ e ∈ coordinated, StartsEtcd first e.call
  watches : ∀ e ∈ watched, ∃ node, Watches node e.call
  fresh : applied ++ coordinated ++ watched ≠ [] → ∃ records w₁, Fresh S w gathered records w₁
  finished : coordinated ++ watched ≠ [] → ∃ v, Applied S confirm w (gathered ++ applied) v
  started : watched ≠ [] → ∃ u r, Coordinated S confirm first w (gathered ++ applied ++ coordinated) u ∧
    Turnwise (watchTurns S) S.nodes u r w' ∧ u.Gains w' watched

namespace Phased

variable {gathered applied coordinated watched before after : List Entry} {e : Entry}

theorem fresh_of_provisions (h : Phased S confirm first w gathered applied coordinated watched w')
    (hlog : gathered ++ applied ++ coordinated ++ watched = before ++ e :: after)
    (he : e.call.Provisions) :
    ∃ gathered records w₁, Fresh S w gathered records w₁ ∧ gathered <+: before := by
  have hsplit : gathered ++ (applied ++ coordinated ++ watched) = before ++ e :: after := by
    simpa using hlog
  rcases append_eq_append_cons_cases hsplit with ⟨mid, rfl, -⟩ | ⟨mid, rfl, hrest⟩
  · exact absurd he (h.observes e (by simp)).not_provisions
  · obtain ⟨records, w₁, hfresh⟩ := h.fresh (by simp [hrest])
    exact ⟨gathered, records, w₁, hfresh, List.prefix_append ..⟩

theorem applied_of_coordinates (h : Phased S confirm first w gathered applied coordinated watched w')
    (hlog : gathered ++ applied ++ coordinated ++ watched = before ++ e :: after)
    (he : e.call.Coordinates) :
    e.call.node? = some first ∧ ∃ front v, Applied S confirm w front v ∧ front <+: before := by
  have hwatched : e ∉ watched := by
    intro hmem
    obtain ⟨node, hwatches⟩ := h.watches e hmem
    exact hwatches.not_coordinates he
  have hearlier : e ∉ gathered ++ applied := by
    intro hmem
    rcases List.mem_append.1 hmem with hmem | hmem
    · exact (h.observes e hmem).not_coordinates he
    · obtain ⟨node, happlies⟩ := h.applies e hmem
      exact happlies.not_coordinates he
  obtain ⟨before', after', rfl, rfl, -⟩ := split_middle hlog hearlier hwatched
  obtain ⟨v, hover⟩ := h.finished (by simp)
  exact ⟨(h.starts e (by simp)).node?_eq, _, v, hover, List.prefix_append ..⟩

theorem coordinated_of_subscribes
    (h : Phased S confirm first w gathered applied coordinated watched w') (hlimit : S.limit = none)
    (hlog : gathered ++ applied ++ coordinated ++ watched = before ++ e :: after)
    (he : e.call.Subscribes) :
    ∃ front u ahead node later v, Coordinated S confirm first w front u ∧
      TurnBegins (watchTurns S) S.nodes u ahead node later v ∧ e.call.node? = some node ∧
      front ++ ahead <+: before := by
  rcases append_eq_append_cons_cases hlog with ⟨mid, hfront, -⟩ | ⟨mid, rfl, hmid⟩
  · have hmem : e ∈ gathered ++ applied ++ coordinated := by simp [hfront]
    rcases List.mem_append.1 hmem with hmem | hmem
    · rcases List.mem_append.1 hmem with hmem | hmem
      · exact absurd he (h.observes e hmem).not_subscribes
      · obtain ⟨node, happlies⟩ := h.applies e hmem
        exact absurd he happlies.not_subscribes
    · exact absurd he (h.starts e hmem).not_subscribes
  · obtain ⟨u, r, hstarted, hturns, hgains⟩ := h.started (by simp [hmid])
    rw [hmid] at hgains
    obtain ⟨hbegins, rfl, hturn, hpiece, -, -, -, -⟩ :=
      hturns.stands (extends_of_ends_watchTurn hlimit) hgains
    have hcall := ((extends_of_ends_watchTurn hlimit _ _ _ _ hturn).forall_mem hpiece e (by simp)).1
    refine ⟨_, u, _, _, _, _, hstarted, hbegins, hcall.node?_eq, ?_⟩
    rw [← List.append_assoc]
    exact List.prefix_append ..

theorem bootstrapPhases (h : Phased S confirm first w gathered applied coordinated watched w')
    (hlimit : S.limit = none) {r : Except Stop BootstrapReport}
    (hstopped : ∀ stop, r = .error stop → BootstrapStops S confirm first w stop w')
    (hstable : ∀ report, r = .ok report → ∃ front u, Coordinated S confirm first w front u ∧
      ∀ node ∈ S.nodes, ∃ v v', u.Extends (fun c => ∃ node ∈ S.nodes, Watches node c) v ∧
        Qualifies S.environment node stableWindow v v' ∧
        v'.Extends (fun c => ∃ node ∈ S.nodes, Watches node c) w') :
    BootstrapPhases S confirm first w (gathered ++ applied ++ coordinated ++ watched) r w' where
  fresh _ _ _ hlog he := h.fresh_of_provisions hlog he
  coordinated _ _ _ hlog he := h.applied_of_coordinates hlog he
  watched _ _ _ hlog he := h.coordinated_of_subscribes hlimit hlog he
  stopped := hstopped
  stable := hstable

/-- A bootstrap that stops at its preflight has only observed. -/
theorem of_observes (h : ∀ e ∈ gathered, Observes e.call) :
    Phased S confirm first w gathered [] [] [] w' where
  observes := h
  applies := by simp
  starts := by simp
  watches := by simp
  fresh hne := absurd rfl hne
  finished hne := absurd rfl hne
  started hne := absurd rfl hne

/-- The turns leave the second piece. -/
theorem of_turns {records : List Observation} {w₁ : World σ} (hobserves : ∀ e ∈ gathered, Observes e.call)
    (hfresh : Fresh S w gathered records w₁) (happlies : ∀ e ∈ applied, ∃ node, Applies node e.call) :
    Phased S confirm first w gathered applied [] [] w' where
  observes := hobserves
  applies := happlies
  starts := by simp
  watches := by simp
  fresh _ := ⟨records, w₁, hfresh⟩
  finished hne := absurd rfl hne
  started hne := absurd rfl hne

/-- The coordinator leaves the third. -/
theorem start {v u : World σ} (h : Phased S confirm first w gathered applied [] [] v)
    (hfresh : ∃ records w₁, Fresh S w gathered records w₁)
    (happlied : Applied S confirm w (gathered ++ applied) v)
    (hstarts : ∀ e ∈ coordinated, StartsEtcd first e.call) :
    Phased S confirm first w gathered applied coordinated [] u where
  observes := h.observes
  applies := h.applies
  starts := hstarts
  watches := by simp
  fresh _ := hfresh
  finished _ := ⟨v, happlied⟩
  started hne := absurd rfl hne

/-- The watchdogs leave the last. -/
theorem watch {u : World σ} {r : Except Stop (List Unit)}
    (h : Phased S confirm first w gathered applied coordinated [] u)
    (hfresh : ∃ records w₁, Fresh S w gathered records w₁)
    (hfinished : ∃ v, Applied S confirm w (gathered ++ applied) v)
    (hcoordinated : Coordinated S confirm first w (gathered ++ applied ++ coordinated) u)
    (hturns : Turnwise (watchTurns S) S.nodes u r w') (hgains : u.Gains w' watched)
    (hwatches : ∀ e ∈ watched, ∃ node, Watches node e.call) :
    Phased S confirm first w gathered applied coordinated watched w' where
  observes := h.observes
  applies := h.applies
  starts := h.starts
  watches := hwatches
  fresh _ := hfresh
  finished _ := hfinished
  started _ := ⟨u, r, hcoordinated, hturns, hgains⟩

end Phased

/-! ## The run -/

theorem exists_window_of_series (hlimit : S.limit = none) {u : World σ} {as : List Unit}
    (h : Series (watchTurns S) S.nodes u as w') {node : Node} (hnode : node ∈ S.nodes) :
    ∃ v v', u.Extends (fun c => ∃ node ∈ S.nodes, Watches node c) v ∧
      Qualifies S.environment node stableWindow v v' ∧
      v'.Extends (fun c => ∃ node ∈ S.nodes, Watches node c) w' := by
  obtain ⟨earlier, later, as₁, a, as₂, v₀, u₀, hitems, hearlier, hturn, hlater⟩ :=
    h.exists_turn_of_mem hnode
  obtain ⟨v, hreached, hqualifies⟩ := qualifies_of_ends_waitStable hlimit hturn
  have hmem {node' : Node} (hnode' : node' ∈ earlier ∨ node' ∈ later) : node' ∈ S.nodes := by
    rw [hitems]
    rcases hnode' with hnode' | hnode' <;> simp [hnode']
  refine ⟨v, u₀, ?_, hqualifies, ?_⟩
  · refine (Turnwise.extends_of_turns (extends_of_ends_watchTurn hlimit) (.finished hearlier)).mono ?_
      |>.trans (hreached.mono fun c hc => ⟨node, hnode, hc⟩)
    rintro c ⟨node', hnode', hc⟩
    exact ⟨node', hmem (.inl hnode'), hc⟩
  · refine (Turnwise.extends_of_turns (extends_of_ends_watchTurn hlimit) (.finished hlater)).mono ?_
    rintro c ⟨node', hnode', hc⟩
    exact ⟨node', hmem (.inr hnode'), hc⟩

section Course

variable {rest : List Node} {gathered : List Entry} {eligible : List Observation} {w₁ v : World σ}

theorem map_node_of_passes (hpass : Passes .bootstrap S w gathered eligible w₁) :
    eligible.map (·.node) = S.nodes := by
  obtain ⟨-, -, hsame, -⟩ := fresh_of_passes hpass
  exact hsame

theorem exists_applies_of_turns (hlimit : S.limit = none) {r : Except Stop (List ApplyOutcome)}
    (h : Turnwise (applyTurns S { confirm } false) eligible w₁ r v) :
    ∃ applied, w₁.Gains v applied ∧ ∀ e ∈ applied, ∃ node, Applies node e.call := by
  obtain ⟨applied, hgains, hall⟩ :=
    (h.extends_of_turns (extends_of_ends_unwatchedTurn hlimit)).gains
  refine ⟨applied, hgains, fun e he => ?_⟩
  obtain ⟨o, -, hc⟩ := (hall e he).1
  exact ⟨o.node, hc⟩

theorem exists_phased_of_series (hlimit : S.limit = none)
    (hpass : Passes .bootstrap S w gathered eligible w₁) {as : List ApplyOutcome}
    (hturns : Series (applyTurns S { confirm } false) eligible w₁ as v) :
    ∃ applied, Applied S confirm w (gathered ++ applied) v ∧
      Phased S confirm first w gathered applied [] [] v := by
  obtain ⟨applied, hgains, happlies⟩ := exists_applies_of_turns hlimit (.finished hturns)
  have hfresh := fresh_of_passes hpass
  exact ⟨applied, .intro hfresh hturns (hpass.gains.trans hgains),
    .of_turns hpass.observes hfresh happlies⟩

theorem exists_phases_of_unapplied (hlimit : S.limit = none)
    (hpass : Passes .bootstrap S w gathered eligible w₁) {stop : Stop}
    (hturns : Turnwise (applyTurns S { confirm } false) eligible w₁ (.error stop) w') :
    ∃ log, w.Gains w' log ∧ BootstrapPhases S confirm first w log (.error stop) w' := by
  have hfresh := fresh_of_passes hpass
  obtain ⟨applied, hgains, happlies⟩ := exists_applies_of_turns hlimit hturns
  have hphased : Phased S confirm first w gathered applied [] [] w' :=
    .of_turns hpass.observes hfresh happlies
  refine ⟨gathered ++ applied ++ [] ++ [], ?_, hphased.bootstrapPhases hlimit ?_ nofun⟩
  · simpa using hpass.gains.trans hgains
  · rintro stop' ⟨⟩
    obtain ⟨front, o, later, v, hbegins, hturn⟩ :=
      hturns.exists_failed (extends_of_ends_unwatchedTurn hlimit)
    exact .unapplied hfresh hbegins hturn

theorem exists_phases_of_unstarted (hlimit : S.limit = none) (hnodes : S.nodes = first :: rest)
    (hfirst : first.isControlPlane = true) (hpass : Passes .bootstrap S w gathered eligible w₁)
    {as : List ApplyOutcome} {stop : Stop}
    (hturns : Series (applyTurns S { confirm } false) eligible w₁ as v)
    (hetcd : (Work.ensureEtcd (eligible.map (·.node))).Ends S v (.error stop) w') :
    ∃ log, w.Gains w' log ∧ BootstrapPhases S confirm first w log (.error stop) w' := by
  rw [map_node_of_passes hpass] at hetcd
  obtain ⟨applied, happlied, hphased⟩ := exists_phased_of_series hlimit hpass hturns
  obtain ⟨es, hes, hstarts⟩ := exists_startsEtcd hlimit hnodes hfirst hetcd
  have hphased := hphased.start (u := w') ⟨_, _, fresh_of_passes hpass⟩ happlied hstarts
  refine ⟨gathered ++ applied ++ es ++ [], ?_, hphased.bootstrapPhases hlimit ?_ nofun⟩
  · simpa using happlied.gains.trans hes
  · rintro stop' ⟨⟩
    exact .unstarted happlied hetcd hes fun e he => (hstarts e he).node?_eq

theorem exists_phases_of_watched (hlimit : S.limit = none) (hnodes : S.nodes = first :: rest)
    (hfirst : first.isControlPlane = true) (hpass : Passes .bootstrap S w gathered eligible w₁)
    {as : List ApplyOutcome} {etcd : EtcdOutcome} {u : World σ} {r : Except Stop (List Unit)}
    (hturns : Series (applyTurns S { confirm } false) eligible w₁ as v)
    (hetcd : (Work.ensureEtcd (eligible.map (·.node))).Ends S v (.ok etcd) u)
    (hwatch : Turnwise (watchTurns S) (eligible.map (·.node)) u r w') (report : BootstrapReport) :
    ∃ log, w.Gains w' log ∧ BootstrapPhases S confirm first w log (r.map fun _ => report) w' := by
  rw [map_node_of_passes hpass] at hetcd hwatch
  obtain ⟨applied, happlied, hphased⟩ := exists_phased_of_series hlimit hpass hturns
  obtain ⟨es, hes, hstarts⟩ := exists_startsEtcd hlimit hnodes hfirst hetcd
  have hcoordinated : Coordinated S confirm first w (gathered ++ applied ++ es) u :=
    .intro happlied hetcd hes (fun e he => (hstarts e he).node?_eq) rfl
  obtain ⟨watched, hwatched, hall⟩ :=
    (hwatch.extends_of_turns (extends_of_ends_watchTurn hlimit)).gains
  have hwatches : ∀ e ∈ watched, ∃ node, Watches node e.call := by
    intro e he
    obtain ⟨node, -, hc⟩ := (hall e he).1
    exact ⟨node, hc⟩
  have hfresh : ∃ records w₁, Fresh S w gathered records w₁ := ⟨_, _, fresh_of_passes hpass⟩
  have hphased := (hphased.start hfresh happlied hstarts).watch hfresh ⟨v, happlied⟩ hcoordinated
    hwatch hwatched hwatches
  refine ⟨gathered ++ applied ++ es ++ watched, ?_, hphased.bootstrapPhases hlimit ?_ ?_⟩
  · exact (happlied.gains.trans hes).trans hwatched
  · intro stop hr
    cases r with
    | ok => cases hr
    | error stop' =>
      cases hr
      obtain ⟨ahead, node, later, v', hbegins, hturn⟩ :=
        hwatch.exists_failed (extends_of_ends_watchTurn hlimit)
      exact .unstable hcoordinated hbegins hturn
  · intro report hr
    cases hwatch with
    | stopped => cases hr
    | finished hseries =>
      exact ⟨_, u, hcoordinated, fun node hnode => exists_window_of_series hlimit hseries hnode⟩

theorem exists_phases_of_course (hlimit : S.limit = none) (hnodes : S.nodes = first :: rest)
    (hfirst : first.isControlPlane = true) (hpass : Passes .bootstrap S w gathered eligible w₁)
    {r : Except Stop BootstrapReport} (h : BootstrapCourse S confirm eligible w₁ r w') :
    ∃ log, w.Gains w' log ∧ BootstrapPhases S confirm first w log r w' := by
  cases h with
  | unapplied hturns => exact exists_phases_of_unapplied hlimit hpass hturns
  | unstarted hturns hetcd => exact exists_phases_of_unstarted hlimit hnodes hfirst hpass hturns hetcd
  | watched hturns hetcd hwatch =>
    exact exists_phases_of_watched hlimit hnodes hfirst hpass hturns hetcd hwatch _

end Course

theorem exists_phases_of_guarded (hlimit : S.limit = none) {rest : List Node}
    (hnodes : S.nodes = first :: rest) (hfirst : first.isControlPlane = true)
    {r : Except Stop BootstrapReport}
    (h : Guarded .bootstrap (Work.bootstrapEligible confirm) S w r w') :
    ∃ log, w.Gains w' log ∧ BootstrapPhases S confirm first w log r w' := by
  cases h with
  | silent hgather =>
    obtain ⟨gathered, hgains, hall⟩ := (hgather.extends .gather).gains
    refine ⟨gathered ++ [] ++ [] ++ [], by simpa using hgains,
      (Phased.of_observes fun e he => (hall e he).1).bootstrapPhases hlimit ?_ ?_⟩
    · rintro stop ⟨⟩
      exact .unobserved hgather
    · rintro report ⟨⟩
  | refused hgather hcheck =>
    obtain ⟨gathered, hgains, hall⟩ := (hgather.extends .gather).gains
    refine ⟨gathered ++ [] ++ [] ++ [], by simpa using hgains,
      (Phased.of_observes fun e he => (hall e he).1).bootstrapPhases hlimit ?_ ?_⟩
    · rintro stop ⟨⟩
      exact .notFresh hgather hcheck rfl
    · rintro report ⟨⟩
  | passed hpass hgo =>
    exact exists_phases_of_course hlimit hnodes hfirst hpass (bootstrapCourse_of_ends hgo)

/-- A bootstrap ends, whatever is answered and whenever it is cancelled. Without a control-plane node in
front it makes no call and fails for its configuration. Otherwise no node is provisioned unless all are
fresh, etcd is started on the first node when all turns are over, the watchdogs follow one after the
other, and an error is the end of the run; a bootstrap that succeeds has seen every node healthy for a
whole window after etcd was started. -/
theorem bootstrap_keeps_phases (env : Environment σ) (cluster : Cluster) (nodes : List Node)
    (signal : Signal) (confirm : Bool) (w : World σ) :
    let S : Setting σ := { environment := env, cluster, nodes, signal }
    ∃ r w', (Work.bootstrap confirm).Ends S w r w' ∧
      ((¬ ∃ first rest, nodes = first :: rest ∧ first.isControlPlane = true) →
        (∃ message, r = .error (.error (.config message))) ∧ w' = w) ∧
      ∀ first rest, nodes = first :: rest → first.isControlPlane = true →
        ∃ log, w.Gains w' log ∧ BootstrapPhases S confirm first w log r w' := by
  intro S
  have hlimit : S.limit = none := rfl
  obtain ⟨r, w', h, -⟩ : ∃ r w', (Work.bootstrap confirm).Ends S w r w' ∧ _ :=
    Work.Runs.bootstrap hlimit w
  refine ⟨r, w', h, fun hnone => ?_, fun first rest hnodes hfirst => ?_⟩
  · rcases Work.ends_bootstrap_iff.1 h with ⟨hseed, -⟩ | ⟨e, hseed, rfl, rfl⟩
    · exact absurd (checkSeed_eq_ok_iff.1 hseed) hnone
    · obtain ⟨message, rfl⟩ := config_of_checkSeed hseed
      exact ⟨⟨message, rfl⟩, rfl⟩
  · rcases Work.ends_bootstrap_iff.1 h with ⟨-, h⟩ | ⟨e, hseed, -, -⟩
    · exact exists_phases_of_guarded hlimit hnodes hfirst (Work.guarded_of_ends h)
    · cases hseed.symm.trans (checkSeed_eq_ok_iff.2 ⟨first, rest, hnodes, hfirst⟩)

end Rollout
