import Rollout.Proofs.Apply.Run
import Rollout.Proofs.Upgrade.Course

/-!
# Upgrading rolls over the nodes

An entry of an upgrade run is looked up in the turn that left it. A request to upgrade was due and
approved there; once it is accepted the node is watched, and only a node that has become stable lets the
next have its turn.
-/

namespace Rollout

variable {σ : Type} {S : Setting σ} {options : UpgradeOptions} {eligible : List Observation}
  {w w' : World σ} {before after es : List Entry} {o : Observation}

theorem Observes.not_upgrades {c : Call} (h : Observes c) : ¬ c.Upgrades := by
  obtain ⟨node, step, rfl⟩ := h
  rintro ⟨client, q, h⟩
  cases step <;> cases h

/-- What stands before a request to upgrade: the turns of earlier nodes, and then, in the turn of the
node, the approval and the connection that the request goes over. The image is the one that the
configuration rendered for the node names, and it differs from what the node has said that it runs;
`gathered` is what both were learned from. -/
inductive Warranted (S : Setting σ) (options : UpgradeOptions) (gathered : List Entry)
    (eligible : List Observation) (w : World σ) (before : List Entry) (client : Client)
    (q : UpgradeRequest) : Prop
  | intro {front o later v asked t t' config image parts extensions version}
      (hturn : TurnBegins (upgradeTurns S options) eligible w front o later v)
      (hclient : client.node = o.node) (hbefore : before = front ++ asked ++ opened client t t')
      (hrendered : ∀ data, (∃ t, .answered t (.render client.node) (.ok data) ∈ gathered) ↔
        data = config)
      (himage : MachineConfig.installerImage config = .ok image)
      (hrequest : q = ⟨image, options.preserve, options.force, options.rebootMode⟩)
      (hparts : InstallerImage.parse image = .ok parts)
      (hextensions : Replied gathered client.node .extensions extensions)
      (hversion : Replied gathered client.node .osVersion version)
      (hdiffers : parts.schematic ≠ Observation.schematicOf extensions ∨ parts.version ≠ version)
      (hdry : options.dryRun = false) (hunasked : options.confirm = false → asked = [])
      (hasked : options.confirm = true → ∃ t t',
        asked = exchange (.ask (Work.upgradeQuestion client.node.host image)) t t' (.ok true)) :
      Warranted S options gathered eligible w before client q

/-- After the entry `e`, which tells that the node has accepted its request, the node is watched. Only if
it becomes stable its turn is over without an error and the later nodes have theirs. -/
inductive Awaited (S : Setting σ) (options : UpgradeOptions) (eligible : List Observation) (w : World σ)
    (before : List Entry) (e : Entry) (node : Node) (r : Except Stop (List (String × UpgradeOutcome)))
    (w' : World σ) : Prop
  | intro {front o later v v₁ r₁ u}
      (hturn : TurnBegins (upgradeTurns S options) eligible w front o later v) (hnode : node = o.node)
      (haccepted : w.Gains v₁ (before ++ [e]))
      (hstable : (Work.waitStable node stableWindow).Ends S v₁ r₁ u)
      (hresult : (r₁ = .ok () ∧ upgradeTurns S options o v (.ok .upgraded) u ∧
          ∃ r₂, Turnwise (upgradeTurns S options) later u r₂ w') ∨
        ∃ stop, r₁ = .error stop ∧ upgradeTurns S options o v (.error stop) u ∧
          r = .error stop ∧ u = w') :
      Awaited S options eligible w before e node r w'

/-- The entry `e`, which tells that the operator said no to the question, ends the turn of the node that
the question is about. The node is not called, and the later nodes have their turns. -/
inductive PassedOver (S : Setting σ) (options : UpgradeOptions) (eligible : List Observation)
    (w : World σ) (es before : List Entry) (e : Entry) (question : String) (w' : World σ) : Prop
  | intro {front o later v u image r₂}
      (hturn : TurnBegins (upgradeTurns S options) eligible w front o later v)
      (hquestion : question = Work.upgradeQuestion o.host image)
      (hskipped : upgradeTurns S options o v (.ok .skipped) u) (hover : w.Gains u (before ++ [e]))
      (huncalled : ∀ e ∈ es, e.call.node? ≠ some o.node)
      (hlater : Turnwise (upgradeTurns S options) later u r₂ w') :
      PassedOver S options eligible w es before e question w'

/-- What holds of everything that an upgrade run leaves in the journal from `w` on, when its preflight is
passed, and of its result. -/
structure UpgradesInTurn (S : Setting σ) (options : UpgradeOptions) (gathered : List Entry)
    (eligible : List Observation) (w : World σ) (es : List Entry)
    (r : Except Stop (List (String × UpgradeOutcome))) (w' : World σ) : Prop where
  /-- A node is called in its turn only, when the turns of all before it are over without an error. -/
  in_turn : ∀ before e after, es = before ++ e :: after → ∃ front o later v,
    TurnBegins (upgradeTurns S options) eligible w front o later v ∧ front <+: before ∧
      InTurn o.node e.call
  awaited : ∀ before t client q after,
    es = before ++ .answered t (.request client (.upgrade q)) (.ok ()) :: after →
      Awaited S options eligible w before (.answered t (.request client (.upgrade q)) (.ok ()))
        client.node r w'
  /-- Requests are accepted half a minute apart. -/
  spaced : (es.filterMap Entry.upgraded?).Pairwise fun t t' => t + Duration.seconds 30 ≤ t'
  /-- An error in a turn is the end of the run, and later nodes are not called. -/
  failed : ∀ front o later v stop u,
    TurnBegins (upgradeTurns S options) eligible w front o later v →
      upgradeTurns S options o v (.error stop) u →
        r = .error stop ∧ u = w' ∧ ∀ o' ∈ later, ∀ e ∈ es, e.call.node? ≠ some o'.node
  /-- The run has no other errors. -/
  stopped : ∀ stop, r = .error stop → ∃ front o later v,
    TurnBegins (upgradeTurns S options) eligible w front o later v ∧
      upgradeTurns S options o v (.error stop) w'
  once : ∀ host, (gathered ++ es).countP (Entry.upgrades host) ≤ 1
  warranted : ∀ before t client q after,
    es = before ++ .sent t (.request client (.upgrade q)) :: after →
      Warranted S options gathered eligible w before client q
  declined : ∀ before t question after,
    es = before ++ .answered t (.ask question) (.ok false) :: after →
      PassedOver S options eligible w es before (.answered t (.ask question) (.ok false)) question w'
  /-- Each node has one outcome, that of its turn. -/
  reported : ∀ outcomes, r = .ok outcomes → outcomes.map (·.1) = eligible.map (·.host) ∧
    ∃ as, Series (upgradeTurns S options) eligible w as w' ∧
      outcomes = (eligible.map (·.host)).zip as

/-! ## One turn -/

section

variable {t : Instant} {client : Client} {q : UpgradeRequest} {question : String}
  {r : Except Stop UpgradeOutcome}

theorem exists_watch_of_accepted (hlimit : S.limit = none) (h : upgradeTurns S options o w r w')
    (hes : w.Gains w'
      (before ++ .answered t (.request client (.upgrade q)) (.ok ()) :: after)) :
    client.node = o.node ∧ ∃ v r₁,
      w.Gains v (before ++ [.answered t (.request client (.upgrade q)) (.ok ())]) ∧
        (Work.waitStable o.node stableWindow).Ends S v r₁ w' ∧ r = r₁.map fun _ => .upgraded := by
  rcases (Work.watchedTurn_of_ends_upgradeTurn h).split_cases hlimit hes
      fun hwatches => hwatches.not_upgrades ⟨client, q, rfl⟩ with
    ⟨htrace, hquiet⟩ | ⟨back, a, v, r₁, rest, htrace, -, hgains, hstable, -, rfl⟩
  · obtain ⟨-, rfl, -⟩ := htrace.of_accepted
    cases hquiet .upgraded rfl
  · obtain ⟨rfl, ha, hclient⟩ := htrace.of_accepted
    cases ha
    exact ⟨hclient, v, r₁, hgains, hstable, rfl⟩

theorem skipped_of_no (hlimit : S.limit = none) (h : upgradeTurns S options o w r w')
    (hes : w.Gains w' (before ++ .answered t (.ask question) (.ok false) :: after)) :
    after = [] ∧ r = .ok .skipped ∧ (∀ e ∈ before, e.call.node? = none) ∧
      ∃ image, question = Work.upgradeQuestion o.host image := by
  have hwatches : ¬ Watches o.node (.ask question) := by
    rintro (h | ⟨client, -, h | h⟩) <;> cases h
  rcases (Work.watchedTurn_of_ends_upgradeTurn h).split_cases hlimit hes hwatches with
    ⟨htrace, -⟩ | ⟨back, a, v, r₁, rest, htrace, hwatched, -⟩
  · obtain ⟨hafter, hr, huncalled, image, parts, -, hquestion⟩ := htrace.of_no
    exact ⟨hafter, hr, huncalled, image, hquestion⟩
  · obtain ⟨-, ha, -⟩ := htrace.of_no
    cases ha
    cases hwatched

/-- One request is accepted in a turn at most, and a turn that is over goes on for a whole window after
it. -/
theorem accepted_of_turn (hlimit : S.limit = none) (h : upgradeTurns S options o w r w')
    (hes : w.Gains w' es) :
    (es.filterMap Entry.upgraded?).length ≤ 1 ∧
      ∀ a, r = .ok a → ∀ t ∈ es.filterMap Entry.upgraded?, t + stableWindow ≤ w'.now := by
  refine (Work.watchedTurn_of_ends_upgradeTurn h).stamped hlimit
    (fun e t he => (e.eq_of_upgraded? he).2) (fun e he => ?_) (fun log r htrace => ?_) hes
  · cases hupgraded : e.upgraded? with
    | none => rfl
    | some t => exact absurd (e.eq_of_upgraded? hupgraded).1 he.not_upgrades
  · rcases htrace.accepted_cases with ⟨hr, t, ht⟩ | ⟨-, hnil⟩
    · exact .inr ⟨_, t, hr, rfl, ht⟩
    · exact .inl hnil

end

/-! ## All turns -/

section

variable {r : Except Stop (List UpgradeOutcome)} {t : Instant} {client : Client} {q : UpgradeRequest}
  {question host : String}

theorem awaited_of_accepted (hlimit : S.limit = none)
    (hturns : Turnwise (upgradeTurns S options) eligible w r w')
    (hes : w.Gains w'
      (before ++ .answered t (.request client (.upgrade q)) (.ok ()) :: after)) :
    Awaited S options eligible w before (.answered t (.request client (.upgrade q)) (.ok ()))
      client.node (r.map (eligible.map (·.host)).zip) w' := by
  obtain ⟨hbegins, rfl, hturn, hpiece, -, -, hnext, -⟩ :=
    hturns.stands (extends_of_ends_upgradeTurn hlimit) hes
  obtain ⟨hclient, v₁, r₁, haccepted, hstable, rfl⟩ :=
    exists_watch_of_accepted hlimit hturn hpiece
  have hfront := hbegins.gains
  refine .intro hbegins hclient ?_ (hclient ▸ hstable) ?_
  · rw [List.append_assoc]
    exact hfront.trans haccepted
  cases r₁ with
  | ok =>
    rcases hnext with ⟨a, r₂, -, hlater⟩ | ⟨stop, hstop, -, -⟩
    · exact .inl ⟨rfl, hturn, r₂, hlater⟩
    · cases hstop
  | error stop =>
    rcases hnext with ⟨a, r₂, ha, -⟩ | ⟨stop', hstop, rfl, rfl⟩
    · cases ha
    · cases hstop
      exact .inr ⟨stop, rfl, hturn, rfl, rfl⟩

theorem passedOver_of_no (hlimit : S.limit = none) (hhosts : (eligible.map (·.host)).Nodup)
    (hturns : Turnwise (upgradeTurns S options) eligible w r w')
    (hes : w.Gains w' (before ++ .answered t (.ask question) (.ok false) :: after)) :
    PassedOver S options eligible w (before ++ .answered t (.ask question) (.ok false) :: after) before
      (.answered t (.ask question) (.ok false)) question w' := by
  have hextends : ∀ o w r w', upgradeTurns S options o w r w' → w.Extends (InTurn o.node) w' :=
    extends_of_ends_upgradeTurn hlimit
  obtain ⟨hbegins, rfl, hturn, hpiece, rfl, hrest, hnext, -⟩ := hturns.stands hextends hes
  obtain ⟨rfl, rfl, huncalled, image, hquestion⟩ := skipped_of_no hlimit hturn hpiece
  rcases hnext with ⟨a, r₂, -, hlater⟩ | ⟨stop, hstop, -, -⟩
  · have hover := hbegins.gains.trans hpiece
    rw [← List.append_assoc] at hover
    refine .intro hbegins hquestion hturn hover ?_ hlater
    cases hbegins with
    | intro hitems hearlier hfront =>
      subst hitems
      have hfirst := Turnwise.not_called_of_nodup hextends hhosts (fun _ => List.mem_append_left _)
        (.finished hearlier) hfront
      have hlast := hlater.not_called_of_nodup hextends hhosts (fun _ => List.mem_append_right _) hrest
      intro e he
      rcases List.mem_append.1 he with he | he
      · rcases List.mem_append.1 he with he | he
        · exact hfirst e he
        · simp [huncalled e he]
      · rcases List.mem_cons.1 he with rfl | he
        · simp [Entry.call, Call.node?]
        · exact hlast e he
  · cases hstop

theorem upgrades_of_turn (hlimit : S.limit = none) (o : Observation) (w : World σ)
    (r : Except Stop UpgradeOutcome) (w' : World σ) (es : List Entry)
    (h : upgradeTurns S options o w r w') (hes : w.Gains w' es) :
    es.countP (Entry.upgrades host) ≤ if o.host == host then 1 else 0 := by
  refine (Work.watchedTurn_of_ends_upgradeTurn h).countP_le_of_host hlimit hes ?_ ?_ ?_
  · intro e hupgrades
    obtain ⟨client, q, hhost, hcall⟩ := e.call_of_upgrades hupgrades
    exact ⟨client.node, congrArg Call.node? hcall, hhost⟩
  · intro e he
    by_contra hupgrades
    obtain ⟨client, q, -, hcall⟩ := e.call_of_upgrades (Bool.not_eq_false _ ▸ hupgrades)
    exact he.not_upgrades ⟨client, q, hcall⟩
  · exact fun es r htrace => htrace.requests_le_one

theorem warranted_of_request {gathered : List Entry} {w₀ : World σ} (hlimit : S.limit = none)
    (hhosts : (S.nodes.map (·.host)).Nodup) (hpass : Passes options.policy S w₀ gathered eligible w)
    (hturns : Turnwise (upgradeTurns S options) eligible w r w')
    (hes : w.Gains w' (before ++ .sent t (.request client (.upgrade q)) :: after)) :
    Warranted S options gathered eligible w before client q := by
  obtain ⟨hbegins, rfl, hturn, hpiece, -, -, -, -⟩ :=
    hturns.stands (extends_of_ends_upgradeTurn hlimit) hes
  obtain ⟨back, r₁, htrace, -, -⟩ :=
    (Work.watchedTurn_of_ends_upgradeTurn hturn).of_split hlimit hpiece
      fun hwatches => hwatches.not_upgrades ⟨client, q, rfl⟩
  obtain ⟨image, parts, asked, t₀, t₁, hdesired, hruns, hdry, hasked, hclient, hq, rfl⟩ :=
    htrace.before_request
  obtain ⟨config, hconfig, himage, hparts⟩ := Observation.of_desired_eq_ok hdesired
  have ho := hbegins.mem
  obtain ⟨-, ⟨extensions, hextensions, hschematic⟩, hversion⟩ := hpass.read ho
  rw [← hclient] at hextensions
  rw [Observation.VersionRead, ← hclient] at hversion
  refine .intro hbegins hclient (List.append_assoc ..).symm (fun data => ?_) himage hq hparts hextensions
    hversion ?_ hdry (fun hconfirm => ?_) (fun hconfirm => ?_)
  · rw [hclient, ← hpass.config_eq_some_iff hhosts ho, hconfig]
    exact Option.some_inj.trans eq_comm
  · rw [← hschematic]
    exact Observation.runs_eq_false_iff.1 hruns
  · cases hasked with
    | waived => rfl
    | asked h => cases hconfirm.symm.trans h
  · cases hasked with
    | waived h => cases hconfirm.symm.trans h
    | @asked t t' _ =>
      rw [congrArg Node.host hclient]
      exact ⟨t, t', rfl⟩

end

/-! ## The run -/

theorem upgradesInTurn_of_turns {gathered : List Entry} {w₀ : World σ}
    {r₁ : Except Stop (List UpgradeOutcome)} (hlimit : S.limit = none) (hhosts : (S.nodes.map (·.host)).Nodup)
    (hpass : Passes options.policy S w₀ gathered eligible w)
    (hturns : Turnwise (upgradeTurns S options) eligible w r₁ w') (hes : w.Gains w' es) :
    UpgradesInTurn S options gathered eligible w es (r₁.map (eligible.map (·.host)).zip) w' := by
  have hextends : ∀ o w r w', upgradeTurns S options o w r w' → w.Extends (InTurn o.node) w' :=
    extends_of_ends_upgradeTurn hlimit
  have heligible := hpass.nodup_hosts hhosts
  refine ⟨?_, ?_, ?_, ?_, ?_, ?_, ?_, ?_, ?_⟩
  · rintro before e after rfl
    obtain ⟨hbegins, rfl, hturn, hpiece, -, -, -, -⟩ := hturns.stands hextends hes
    refine ⟨_, _, _, _, hbegins, List.prefix_append .., ?_⟩
    exact ((hextends _ _ _ _ hturn).forall_mem hpiece e (by simp)).1
  · rintro before t client q after rfl
    exact awaited_of_accepted hlimit hturns hes
  · refine (hturns.spaced hextends (fun e t he => (e.eq_of_upgraded? he).2)
      (fun o w r w' es hturn hgains => ?_) (fun o w a w' es hturn hgains => ?_) hes).1
    · exact (accepted_of_turn hlimit hturn hgains).1
    · exact (accepted_of_turn hlimit hturn hgains).2 a rfl
  · intro front o later v stop u hbegins hstop
    obtain ⟨rfl, rfl⟩ := hturns.eq_of_failed (fun _ _ _ _ _ _ h h' => h.unique h') hbegins hstop
    obtain ⟨rfl, hearlier, -⟩ := hbegins
    exact ⟨rfl, rfl, Turnwise.not_called_of_failed hextends heligible hearlier hstop hes⟩
  · intro stop hr
    cases r₁ with
    | ok => cases hr
    | error =>
      cases hr
      exact hturns.exists_failed hextends
  · intro host
    rw [List.countP_append, countP_upgrades_eq_zero fun e he => (hpass.observes e he).not_upgrades,
      Nat.zero_add]
    exact hturns.countP_le_one hextends (upgrades_of_turn hlimit) heligible hes
  · rintro before t client q after rfl
    exact warranted_of_request hlimit hhosts hpass hturns hes
  · rintro before t question after rfl
    exact passedOver_of_no hlimit heligible hturns hes
  · intro outcomes hr
    cases hturns with
    | stopped => cases hr
    | @finished as _ hseries =>
      cases hr
      exact ⟨hseries.map_fst_zip, as, hseries, rfl⟩

/-- Whatever is answered and whenever it is cancelled, an upgrade run ends. If it gets past its
preflight, it rolls over the eligible nodes one at a time, in visiting order: no node is called before
the turns of all earlier nodes are over without an error, an upgraded node has to become stable, and an
error is the end of the run. Each node is asked to upgrade itself once at most, to the image that its own
configuration names, and only if it runs another and the operator does not object. -/
theorem upgrade_rolls_in_turn (env : Environment σ) (cluster : Cluster) (nodes : List Node)
    (hhosts : (nodes.map (·.host)).Nodup) (signal : Signal) (options : UpgradeOptions) (w : World σ) :
    let S : Setting σ := { environment := env, cluster, nodes, signal }
    ∃ r w', (Work.upgrade options).Ends S w r w' ∧
      ((∃ stop log, r = .error stop ∧ w.Gains w' log ∧ ∀ e ∈ log, Observes e.call) ∨
        ∃ gathered eligible w₁ es, Passes options.policy S w gathered eligible w₁ ∧
          (eligible.map (·.node)).Sublist nodes ∧ w₁.Gains w' es ∧
          UpgradesInTurn S options gathered eligible w₁ es r w') := by
  intro S
  have hlimit : S.limit = none := rfl
  obtain ⟨r, w', h, -⟩ : ∃ r w', (Work.upgrade options).Ends S w r w' ∧ _ :=
    Work.Runs.upgrade hlimit w
  refine ⟨r, w', h, ?_⟩
  have hguarded : (Work.guarded options.policy (Work.upgradeNodes options)).Ends S w r w' := h
  cases Work.guarded_of_ends hguarded with
  | silent hgather =>
    obtain ⟨log, hlog, hobserves⟩ := (hgather.extends .gather).gains
    exact .inl ⟨_, log, rfl, hlog, fun e he => (hobserves e he).1⟩
  | refused hgather =>
    obtain ⟨log, hlog, hobserves⟩ := (hgather.extends .gather).gains
    exact .inl ⟨_, log, rfl, hlog, fun e he => (hobserves e he).1⟩
  | passed hpass hgo =>
    obtain ⟨r₁, hturns, rfl⟩ := turnwise_of_ends_upgradeNodes hgo
    obtain ⟨es, hes, -⟩ :=
      (hturns.extends_of_turns (extends_of_ends_upgradeTurn hlimit)).gains
    exact .inr ⟨_, _, _, es, hpass, hpass.sublist_nodes, hes,
      upgradesInTurn_of_turns hlimit hhosts hpass hturns hes⟩

/-- The environment `obliging`, but nodes are to run another image than they do and refuse to upgrade. -/
def reluctant : Environment Unit where
  serve now state
    | .render _ =>
      { begun := ()
        delay := some 0
        finish := fun _ =>
          ((), .ok (Bytes.ofText "machine:\n  install:\n    image: registry/installer:v2\n")) }
    | .request _ (.upgrade _) =>
      { begun := ()
        delay := some 0
        finish := fun _ => ((), .error (.unavailable "busy")) }
    | c => obliging.serve now state c

/-- The first of two nodes is asked to upgrade itself and refuses, which is the end of the run. -/
theorem two_nodes_upgrade_in_turn :
    (twoNodes.nodes.map (·.host)).Nodup ∧
      let S : Setting Unit := { twoNodes with environment := reluctant }
      ∃ r w' gathered eligible w₁ es, (Work.upgrade {}).Ends S { state := () } r w' ∧
        Passes ({} : UpgradeOptions).policy S { state := () } gathered eligible w₁ ∧
        w₁.Gains w' es ∧ (gathered ++ es).countP (Entry.upgrades "a") = 1 ∧
        r = .error (.error (.upgrade "a" (.unavailable "busy"))) ∧
        UpgradesInTurn S {} gathered eligible w₁ es r w' := by
  have hhosts : (twoNodes.nodes.map (·.host)).Nodup := by decide
  refine ⟨hhosts, ?_⟩
  intro S
  obtain ⟨r, w', h, hcases⟩ := upgrade_rolls_in_turn reluctant twoNodes.cluster twoNodes.nodes
    hhosts .never {} { state := () }
  have hrun : ((Work.upgrade {}).result? S { state := () }).map (fun p =>
      (match p.1 with
        | .error (.error e) => some e
        | .error .overdue => none
        | .ok _ => none,
        p.2.journal.toList.countP (Entry.upgrades "a"))) =
      some (some (.upgrade "a" (.unavailable "busy")), 1) := by
    decide +kernel
  have hresult : (Work.upgrade {}).result? S { state := () } = some (r, w') := h
  rw [hresult] at hrun
  obtain ⟨hstop, hcount⟩ := Prod.mk.inj (Option.some.inj hrun)
  dsimp only at hstop hcount
  rcases hcases with ⟨stop, log, -, hlog, hobserves⟩ |
    ⟨gathered, eligible, w₁, es, hpass, -, hes, hrolls⟩
  · rw [hlog, List.countP_append,
      countP_upgrades_eq_zero fun e he => (hobserves e he).not_upgrades] at hcount
    cases hcount
  · rw [hpass.gains.trans hes, List.countP_append] at hcount
    refine ⟨r, w', gathered, eligible, w₁, es, h, hpass, hes, (Nat.zero_add _).symm.trans hcount, ?_,
      hrolls⟩
    split at hstop
    · rw [Option.some.inj hstop]
    · cases hstop
    · cases hstop

end Rollout
