import Rollout.Proofs.DryRun.Blocks
import Rollout.Proofs.DryRun.Inertness
import Rollout.Proofs.Upgrade.Rolling

/-!
# Dry runs are faithful

What a dry run says will happen is what happens: a node is reported as pending exactly if the real run tells it
to upgrade itself, and the operator is shown the same blocks, in the same order, as in a run that asks. For
both depend on nothing but how the nodes conduct themselves up to there, and so far the two runs call them
alike.
-/

namespace Rollout

variable {σ τ : Type} {S : Setting σ} {w w' : World σ} {o : Observation} {eligible : List Observation}
  {es log : List Entry} {host : String}

/-! ## Upgrades -/

/-- The node does not run what its configuration names. -/
def Observation.Outdated (o : Observation) : Prop :=
  ∃ image parts, o.desired = .ok (image, parts) ∧ o.runs parts = false

def OutdatedAmong (records : List Observation) (host : String) : Prop :=
  ∃ o ∈ records, o.host = host ∧ o.Outdated

theorem outdatedAmong_cons {records : List Observation} :
    OutdatedAmong (o :: records) host ↔ o.host = host ∧ o.Outdated ∨ OutdatedAmong records host := by
  simp [OutdatedAmong]

theorem Observation.not_outdated {image : String} {parts : InstallerImage}
    (himage : o.desired = .ok (image, parts)) (hruns : o.runs parts = true) : ¬ o.Outdated := by
  rintro ⟨image', parts', himage', hruns'⟩
  cases himage.symm.trans himage'
  cases hruns.symm.trans hruns'

section

variable {options : UpgradeOptions} {a : UpgradeOutcome}

/-- In a dry run a turn says that it is pending if its node is outdated. -/
theorem UpgradeTrace.pending_iff (h : UpgradeTrace options o es (.ok a)) (hdry : options.dryRun = true) :
    a = .pending ↔ o.Outdated := by
  generalize hr : (.ok a : Except Stop UpgradeOutcome) = r at h
  cases h with
  | unimaged => cases hr
  | upToDate himage hruns =>
    cases hr
    exact iff_of_false (by simp) (Observation.not_outdated himage hruns)
  | pending himage hruns =>
    cases hr
    exact iff_of_true rfl ⟨_, _, himage, hruns⟩
  | undecided => cases hr
  | declined _ _ hno => cases hno.symm.trans hdry
  | unconnected => cases hr
  | requested _ _ hno => cases hno.symm.trans hdry

theorem UpgradeTrace.any_upgrades_iff (h : UpgradeTrace options o es (.ok a))
    (hdry : options.dryRun = false) (hconfirm : options.confirm = false) :
    es.any (Entry.upgrades o.host) = true ↔ o.Outdated := by
  generalize hr : (.ok a : Except Stop UpgradeOutcome) = r at h
  cases h with
  | unimaged => cases hr
  | upToDate himage hruns => exact iff_of_false (by simp) (Observation.not_outdated himage hruns)
  | pending _ _ hyes => cases hyes.symm.trans hdry
  | undecided => cases hr
  | declined _ _ _ hasked => cases hasked.symm.trans hconfirm
  | unconnected => cases hr
  | @requested image parts asked client t t' es r himage hruns _ _ hclient hes =>
    obtain ⟨t₀, rest, rfl, -⟩ := hes.head
    refine iff_of_true (List.any_eq_true.2
      ⟨.sent t₀ (.request client (.upgrade (options.request image))), ?_, ?_⟩) ⟨image, parts, himage, hruns⟩
    · exact List.mem_append_right _ List.mem_cons_self
    · exact beq_iff_eq.2 (congrArg Node.host hclient)

theorem any_upgrades_of_turn_iff (hlimit : S.limit = none) (hdry : options.dryRun = false)
    (hconfirm : options.confirm = false) (h : upgradeTurns S options o w (.ok a) w')
    (hes : w.Gains w' es) :
    es.any (Entry.upgrades host) = true ↔ o.host = host ∧ o.Outdated := by
  by_cases hhost : o.host = host
  · subst hhost
    obtain ⟨piece, watch, hgains, hwatch, ⟨-, -, hr⟩ | ⟨r, htrace, hok, -⟩⟩ :=
      (Work.watchedTurn_of_ends_upgradeTurn h).parts hlimit
    · cases hr
    obtain rfl := hok a rfl
    obtain rfl := hes.unique hgains
    have hnone : watch.any (Entry.upgrades o.host) = false := by
      rw [List.any_eq_false]
      intro e he hupgrades
      obtain ⟨client, q, -, hcall⟩ := e.call_of_upgrades hupgrades
      exact (hwatch e he).not_upgrades ⟨client, q, hcall⟩
    rw [List.any_append, hnone, Bool.or_false, htrace.any_upgrades_iff hdry hconfirm]
    exact (and_iff_right rfl).symm
  · refine iff_of_false (fun hany => ?_) fun hboth => hhost hboth.1
    obtain ⟨e, he, hupgrades⟩ := List.any_eq_true.1 hany
    obtain ⟨client, q, hclient, hcall⟩ := e.call_of_upgrades hupgrades
    rcases ((extends_of_ends_upgradeTurn hlimit o w _ w' h).forall_mem hes e he).1 with hnode | hnode
    · rw [hcall] at hnode
      exact hhost ((congrArg Node.host (Option.some.inj hnode)).symm.trans hclient)
    · rw [hcall] at hnode
      cases hnode

theorem any_upgrades_of_series_iff (hlimit : S.limit = none) (hdry : options.dryRun = false)
    (hconfirm : options.confirm = false) {as : List UpgradeOutcome}
    (h : Series (upgradeTurns S options) eligible w as w') (hes : w.Gains w' es) :
    es.any (Entry.upgrades host) = true ↔ OutdatedAmong eligible host := by
  induction h generalizing es with
  | nil =>
    obtain rfl := hes.unique (.refl _)
    simp [OutdatedAmong]
  | @cons o rest w a as w₁ w' hturn hrest ih =>
    obtain ⟨piece, hpiece, -⟩ := (extends_of_ends_upgradeTurn hlimit o w _ w₁ hturn).gains
    obtain ⟨later, hlater, -⟩ :=
      (Turnwise.extends_of_turns (extends_of_ends_upgradeTurn hlimit) (.finished hrest)).gains
    obtain rfl := hes.unique (hpiece.trans hlater)
    rw [List.any_append, Bool.or_eq_true, any_upgrades_of_turn_iff hlimit hdry hconfirm hturn hpiece,
      ih hlater, outdatedAmong_cons]

theorem pending_of_series_iff (hlimit : S.limit = none) (hdry : options.dryRun = true)
    {as : List UpgradeOutcome} (h : Series (upgradeTurns S options) eligible w as w') :
    (host, .pending) ∈ (eligible.map (·.host)).zip as ↔ OutdatedAmong eligible host := by
  induction h with
  | nil => simp [OutdatedAmong]
  | @cons o rest w a as w₁ w' hturn hrest ih =>
    obtain ⟨piece, watch, -, -, ⟨-, -, hr⟩ | ⟨r, htrace, hok, -⟩⟩ :=
      (Work.watchedTurn_of_ends_upgradeTurn hturn).parts hlimit
    · cases hr
    obtain rfl := hok a rfl
    rw [List.map_cons, List.zip_cons_cons, List.mem_cons, ih, outdatedAmong_cons, Prod.mk.injEq,
      ← htrace.pending_iff hdry]
    exact or_congr (and_congr eq_comm eq_comm) Iff.rfl

theorem series_of_ends_upgrade {outcomes : List (String × UpgradeOutcome)}
    (h : (Work.upgrade options).Ends S w (.ok outcomes) w') :
    ∃ gathered eligible w₁ as, Passes options.policy S w gathered eligible w₁ ∧
      Series (upgradeTurns S options) eligible w₁ as w' ∧
      outcomes = (eligible.map (·.host)).zip as := by
  rw [Work.upgrade_eq] at h
  generalize hr : (.ok outcomes : Except Stop (List (String × UpgradeOutcome))) = r at h
  cases Work.guarded_of_ends h with
  | silent => cases hr
  | refused => cases hr
  | passed hpass hgo =>
    obtain ⟨r₁, hturns, rfl⟩ := turnwise_of_ends_upgradeNodes hgo
    cases hturns with
    | stopped => cases hr
    | finished hseries => exact ⟨_, _, _, _, hpass, hseries, Except.ok.inj hr⟩

end

/-! ## The same fleet twice -/

/-- What is left of the readings of the nodes when those that are not eligible are taken out. -/
def eligibleReadings (p : Policy) (conduct : Node → Conduct τ) (nodes : List Node) (state : Node → τ) :
    List (Observation × τ) :=
  (nodes.map fun node => (conduct node).reading node (state node)).filter fun x => decide (p.Eligible x.1)

theorem eligibleReadings_congr {p : Policy} {conduct : Node → Conduct τ} {nodes : List Node}
    {state state' : Node → τ} (h : ∀ node ∈ nodes, state' node = state node) :
    eligibleReadings p conduct nodes state' = eligibleReadings p conduct nodes state := by
  unfold eligibleReadings
  rw [List.map_congr_left fun node hnode => congrArg ((conduct node).reading node) (h node hnode)]

theorem Passes.readings_eq {p : Policy} {gathered : List Entry} {w₁ : World σ} {view : Node → σ → τ}
    {conduct : Node → Conduct τ} (h : Passes p S w gathered eligible w₁)
    (hhosts : (S.nodes.map (·.host)).Nodup)
    (hconducts : ∀ node ∈ S.nodes, S.environment.Conducts node (view node) (conduct node)) :
    eligible.map (fun o => (o, view o.node w₁.state)) =
      eligibleReadings p conduct S.nodes fun node => view node w.state := by
  obtain ⟨hgather, -, hcheck⟩ := h
  rw [eligibleReadings, ← Work.readings_of_ends_gather hhosts hconducts hgather, List.filter_map,
    Policy.eq_filter_of_check hcheck]
  rfl

/-- Past its preflight an apply run that is over shows the block of each eligible node, if every change is
to be shown, and nothing else. -/
theorem shown_of_ends_apply {options : ApplyOptions} {report : ApplyReport} {view : Node → σ → τ}
    {conduct : Node → Conduct τ} (hlimit : S.limit = none)
    (hshows : options.dryRun = true ∨ options.confirm = true)
    (hhosts : (S.nodes.map (·.host)).Nodup)
    (hconducts : ∀ node ∈ S.nodes, S.environment.Conducts node (view node) (conduct node))
    (h : (Work.apply options).Ends S w (.ok report) w') (hlog : w.Gains w' log) :
    shown log = (eligibleReadings options.policy conduct S.nodes fun node => view node w.state).filterMap
      fun x => (conduct x.1.node).block? x.1 x.2 := by
  obtain ⟨log', hlog', hconfigures⟩ := configures_of_ends_apply hlimit h
  obtain rfl := hlog.unique hlog'
  generalize hr : (Except.ok report : Except Stop ApplyReport).map (·.outcomes) = r at hconfigures
  cases hconfigures with
  | idle => cases hr
  | @turns gathered eligible w₁ stabilize es r₁ v rest _ _ hpass hturns hes _ hcalls hreport =>
    obtain ⟨as, rfl, -⟩ := hreport report.outcomes hr.symm
    cases hturns with
    | finished hseries =>
      have hmem : ∀ o ∈ eligible, o.node ∈ S.nodes := fun o ho =>
        hpass.sublist_nodes.subset (List.mem_map_of_mem ho)
      have hblocks := shownFrom_of_series hlimit hshows (hpass.nodup_hosts hhosts)
        (fun o ho => hconducts _ (hmem o ho)) hseries hes
      have hgathered (host : String) : shownFrom host gathered = [] :=
        shownFrom_eq_nil fun e he => e.text?_eq_none fun text hcall =>
          (hpass.observes e he).not_negotiates (.inr (congrArg Call.node? hcall))
      have hrest (host : String) : shownFrom host rest = [] :=
        shownFrom_eq_nil fun e he => e.text?_eq_none fun text hcall =>
          hcalls e he (.inr (congrArg Call.node? hcall))
      obtain ⟨last, hlast⟩ := exists_shownFrom_append "" (gathered ++ es) rest
      obtain ⟨first, hfirst⟩ := exists_shownFrom_append "" gathered es
      rw [shown, hlast, hfirst, hgathered, hrest, hblocks, ← hpass.readings_eq hhosts hconducts,
        List.filterMap_map, List.nil_append, List.append_nil]
      rfl

/-- The same nodes conduct themselves alike in two runs that begin in `w` and in `v`. -/
inductive Alike {σ' : Type} (S : Setting σ) (w : World σ) (S' : Setting σ') (v : World σ')
    (conduct : Node → Conduct τ) : Prop
  | intro {view : Node → σ → τ} {view' : Node → σ' → τ} (hnodes : S'.nodes = S.nodes)
      (hconducts : ∀ node ∈ S.nodes, S.environment.Conducts node (view node) (conduct node))
      (hconducts' : ∀ node ∈ S.nodes, S'.environment.Conducts node (view' node) (conduct node))
      (hstate : ∀ node ∈ S.nodes, view' node v.state = view node w.state) : Alike S w S' v conduct

section

variable {σ' : Type} {S' : Setting σ'} {v v' : World σ'} {conduct : Node → Conduct τ}
  (hlimit : S.limit = none) (hlimit' : S'.limit = none) (hhosts : (S.nodes.map (·.host)).Nodup)
  (halike : Alike S w S' v conduct)

include hlimit hlimit' hhosts halike

/-- The nodes reported as pending are those that the real run tells to upgrade themselves. -/
theorem pending_iff_upgraded {options options' : UpgradeOptions} (hdry : options.dryRun = true)
    (hdry' : options'.dryRun = false) (hconfirm : options'.confirm = false)
    (hpolicy : options'.policy = options.policy) {outcomes outcomes' : List (String × UpgradeOutcome)}
    (h : (Work.upgrade options).Ends S w (.ok outcomes) w')
    (h' : (Work.upgrade options').Ends S' v (.ok outcomes') v') (hlog : v.Gains v' log) :
    (host, .pending) ∈ outcomes ↔ log.any (Entry.upgrades host) = true := by
  obtain ⟨hnodes, hconducts, hconducts', hstate⟩ := halike
  obtain ⟨gathered, eligible, w₁, as, hpass, hseries, rfl⟩ := series_of_ends_upgrade h
  obtain ⟨gathered', eligible', v₁, as', hpass', hseries', -⟩ := series_of_ends_upgrade h'
  have hreadings := hpass.readings_eq hhosts hconducts
  have hreadings' := hpass'.readings_eq (hnodes ▸ hhosts) (hnodes ▸ hconducts')
  rw [hnodes, hpolicy, eligibleReadings_congr hstate, ← hreadings] at hreadings'
  have hsame : eligible' = eligible := by
    have hrecords := congrArg (List.map Prod.fst) hreadings'
    simpa [Function.comp_def] using hrecords
  subst hsame
  obtain ⟨es, hes, -⟩ :=
    (Turnwise.extends_of_turns (extends_of_ends_upgradeTurn hlimit') (.finished hseries')).gains
  obtain rfl := hlog.unique (hpass'.gains.trans hes)
  have hgathered : gathered'.any (Entry.upgrades host) = false := by
    rw [List.any_eq_false]
    intro e he hupgrades
    obtain ⟨client, q, -, hcall⟩ := e.call_of_upgrades hupgrades
    exact (hpass'.observes e he).not_upgrades ⟨client, q, hcall⟩
  rw [List.any_append, hgathered, Bool.false_or, pending_of_series_iff hlimit hdry hseries,
    any_upgrades_of_series_iff hlimit' hdry' hconfirm hseries' hes]

/-- The operator is shown the same by the dry run and by the run that asks. -/
theorem shown_eq_shown {options options' : ApplyOptions} (hdry : options.dryRun = true)
    (hconfirm : options'.confirm = true) (hpolicy : options'.policy = options.policy)
    {report report' : ApplyReport} {log' : List Entry}
    (h : (Work.apply options).Ends S w (.ok report) w') (hlog : w.Gains w' log)
    (h' : (Work.apply options').Ends S' v (.ok report') v') (hlog' : v.Gains v' log') :
    shown log = shown log' := by
  obtain ⟨hnodes, hconducts, hconducts', hstate⟩ := halike
  rw [shown_of_ends_apply hlimit (.inl hdry) hhosts hconducts h hlog,
    shown_of_ends_apply hlimit' (.inr hconfirm) (hnodes ▸ hhosts) (hnodes ▸ hconducts') h' hlog',
    hnodes, hpolicy, eligibleReadings_congr hstate]

end

/-- Dry runs end, and are inert and faithful: they do nothing to the nodes but read them and preview changes,
and what they announce is what the real runs do, where the nodes conduct themselves alike and both runs come
to a result. -/
theorem dry_runs_are_inert_and_faithful (S : Setting σ) (w : World σ) (applying : ApplyOptions)
    (upgrading : UpgradeOptions) (hlimit : S.limit = none) (hhosts : (S.nodes.map (·.host)).Nodup) :
    (∃ r w' log, (Work.apply { applying with dryRun := true }).Ends S w r w' ∧ w.Gains w' log ∧
      Inert applying.policy S w log ∧ ∀ e ∈ log, ¬ e.call.Intrudes) ∧
    (∃ r w' log, (Work.upgrade { upgrading with dryRun := true }).Ends S w r w' ∧ w.Gains w' log ∧
      (∀ e ∈ log, Observes e.call) ∧ ∀ e ∈ log, ¬ e.call.Intrudes) ∧
    ∀ (σ' τ : Type) (S' : Setting σ') (v : World σ') (conduct : Node → Conduct τ), S'.limit = none →
      Alike S w S' v conduct →
      (∀ outcomes w' outcomes' v' log host,
        (Work.upgrade { upgrading with dryRun := true }).Ends S w (.ok outcomes) w' →
        (Work.upgrade { upgrading with dryRun := false, confirm := false }).Ends S' v (.ok outcomes') v' →
        v.Gains v' log →
        ((host, .pending) ∈ outcomes ↔ log.any (Entry.upgrades host) = true)) ∧
      ∀ report w' log report' v' log',
        (Work.apply { applying with dryRun := true }).Ends S w (.ok report) w' → w.Gains w' log →
        (Work.apply { applying with dryRun := false, confirm := true }).Ends S' v (.ok report') v' →
        v.Gains v' log' → shown log = shown log' := by
  refine ⟨?_, ?_, fun σ' τ S' v conduct hlimit' halike => ⟨?_, ?_⟩⟩
  · obtain ⟨r, w', h, hextends⟩ : ∃ r w',
        (Work.apply { applying with dryRun := true }).Ends S w r w' ∧ _ := Work.Runs.apply hlimit w
    obtain ⟨log, hlog, -⟩ := hextends.gains
    have hinert := Work.inert_of_ends_apply rfl hlimit hhosts h hlog
    exact ⟨r, w', log, h, hlog, hinert, hinert.not_intrudes⟩
  · obtain ⟨r, w', h, hextends⟩ : ∃ r w',
        (Work.upgrade { upgrading with dryRun := true }).Ends S w r w' ∧ _ := Work.Runs.upgrade_dry rfl w
    obtain ⟨log, hlog, hobserves⟩ := hextends.gains
    exact ⟨r, w', log, h, hlog, fun e he => (hobserves e he).1,
      fun e he => (hobserves e he).1.not_intrudes⟩
  · intro outcomes w' outcomes' v' log host h h' hlog
    refine pending_iff_upgraded hlimit hlimit' hhosts halike ?_ ?_ ?_ ?_ h h' hlog <;> rfl
  · intro report w' log report' v' log' h hlog h' hlog'
    refine shown_eq_shown hlimit hlimit' hhosts halike ?_ ?_ ?_ h hlog h' hlog' <;> rfl

/-- A node that would change with every configuration, and takes each. -/
def pliantNode : Conduct Unit where
  connect _ := ⟨(), fun _ => ((), .ok .mutual)⟩
  render _ := ⟨(), fun _ => ((), .ok [])⟩
  request _ _
    | .status => ⟨(), fun _ => ((), .ok { stage := .running, readiness := { ready := true } })⟩
    | .extensions => ⟨(), fun _ => ((), .ok [])⟩
    | .osVersion => ⟨(), fun _ => ((), .ok "v1")⟩
    | .applyConfiguration _ _ => ⟨(), fun _ => ((), .ok { mode := "auto", details := "+ new", warnings := [] })⟩
    | _ => ⟨(), fun _ => ((), .error (.unavailable "pliant"))⟩

def pliantWorld : Environment (String → Unit) :=
  Conduct.world (fun _ => pliantNode) (fun _ => 0) fun _ => .ok true

def twoPliantNodes : Setting (String → Unit) := { twoNodes with environment := pliantWorld }

theorem two_nodes_are_shown_alike :
    twoPliantNodes.limit = none ∧ (twoPliantNodes.nodes.map (·.host)).Nodup ∧
      ∃ report w' log report' v' log',
        (Work.apply { dryRun := true, skipPostApplyChecks := true }).Ends twoPliantNodes
          { state := fun _ => () } (.ok report) w' ∧
        (Work.apply { skipPostApplyChecks := true }).Ends twoPliantNodes
          { state := fun _ => () } (.ok report') v' ∧
        World.Gains { state := fun _ => () } w' log ∧ World.Gains { state := fun _ => () } v' log' ∧
        shown log = shown log' ∧ shown log' = [("a", "+ new"), ("b", "+ new")] := by
  have hends (options : ApplyOptions)
      (hrun : ((Work.apply options).result? twoPliantNodes { state := fun _ => () }).map
        (fun p => (p.1.isOk, shown p.2.journal.toList)) = some (true, [("a", "+ new"), ("b", "+ new")])) :
      ∃ report w', (Work.apply options).Ends twoPliantNodes { state := fun _ => () } (.ok report) w' ∧
        World.Gains { state := fun _ => () } w' w'.journal.toList ∧
        shown w'.journal.toList = [("a", "+ new"), ("b", "+ new")] := by
    obtain ⟨⟨r, w'⟩, hresult, hpair⟩ := Option.map_eq_some_iff.1 hrun
    obtain ⟨hok, hshown⟩ := Prod.mk.inj hpair
    cases r with
    | error => cases hok
    | ok report => exact ⟨report, w', hresult, rfl, hshown⟩
  have hlimit : twoPliantNodes.limit = none := rfl
  have hhosts : (twoPliantNodes.nodes.map (·.host)).Nodup := by decide
  have hconducts (node : Node) : pliantWorld.Conducts node (· node.host) pliantNode :=
    Conduct.conducts_world node
  have halike : Alike twoPliantNodes { state := fun _ => () } twoPliantNodes { state := fun _ => () }
      fun _ => pliantNode :=
    .intro rfl (fun node _ => hconducts node) (fun node _ => hconducts node) fun _ _ => rfl
  obtain ⟨report, w', h, hlog, -⟩ := hends { dryRun := true, skipPostApplyChecks := true } (by decide +kernel)
  obtain ⟨report', v', h', hlog', hshown⟩ := hends { skipPostApplyChecks := true } (by decide +kernel)
  obtain ⟨-, -, hfaithful⟩ := dry_runs_are_inert_and_faithful twoPliantNodes { state := fun _ => () }
    { skipPostApplyChecks := true } {} hlimit hhosts
  exact ⟨hlimit, hhosts, report, w', _, report', v', _, h, h', hlog, hlog',
    (hfaithful _ _ twoPliantNodes _ _ hlimit halike).2 report w' _ report' v' _ h hlog h' hlog', hshown⟩

end Rollout
