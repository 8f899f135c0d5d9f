import Rollout.Proofs.Convergence.Keeping

/-!
# Applying again

However an apply run has ended, running it again is safe: nodes that already have their configuration, be it
from before or from the first run, are left as they are. If nothing was left out the first time, nothing is
left to do.
-/

namespace Rollout

variable {σ : Type} {S : Setting σ} {applied : String → σ → Option Bytes} {config : String → Bytes}
  {options : ApplyOptions} {stabilize : Bool} {eligible : List Observation} {w w' : World σ}
  {es log : List Entry} {host : String}

/-! ## The turns -/

theorem Prepares.not_subscribes {node : Node} {c : Call} (h : Prepares node c) : ¬ c.Subscribes := by
  rintro ⟨client, rfl⟩
  rcases h with h | ⟨client', data, -, h⟩ <;> cases h

theorem InTurn.not_subscribesTo {node : Node} {c : Call} (h : InTurn node c) (hhost : node.host ≠ host) :
    ¬ c.SubscribesTo host := by
  rintro ⟨client, rfl, rfl⟩
  rcases h with h | h
  · exact hhost (congrArg Node.host (Option.some.inj h)).symm
  · cases h

/-- The host is neither given a configuration nor reset, and its events are not subscribed to. -/
def LeftAlone (host : String) (es : List Entry) : Prop :=
  ∀ e ∈ es, ¬ e.call.Overwrites host ∧ ¬ e.call.SubscribesTo host

theorem leftAlone_append {es es' : List Entry} :
    LeftAlone host (es ++ es') ↔ LeftAlone host es ∧ LeftAlone host es' :=
  List.forall_mem_append

theorem leftAlone_of_not {es : List Entry}
    (h : ∀ e ∈ es, ¬ e.call.Overwrites host ∧ ¬ e.call.Subscribes) : LeftAlone host es :=
  fun e he => ⟨(h e he).1, fun ⟨client, _, hc⟩ => (h e he).2 ⟨client, hc⟩⟩

theorem leftAlone_of_turn {o : Observation} {r : Except Stop ApplyOutcome} (hlimit : S.limit = none)
    (hstores : S.environment.Stores applied) (h : applyTurns S options stabilize o w r w')
    (hconfig : ∀ data, o.config = some data → data = config o.host) (hes : w.Gains w' es)
    (hconverged : Converged applied config host w.state) : LeftAlone host es := by
  by_cases hhost : o.host = host
  · subst hhost
    have hquiet := (prepares_of_converged hlimit hstores h hconfig hconverged hes).1
    exact leftAlone_of_not fun e he => ⟨(hquiet e he).not_overwrites, (hquiet e he).not_subscribes⟩
  · intro e he
    have hcall := ((extends_of_ends_applyTurn hlimit o w r w' h).forall_mem hes e he).1
    exact ⟨hcall.not_overwrites hhost, hcall.not_subscribesTo hhost⟩

section

variable (hlimit : S.limit = none) (hstores : S.environment.Stores applied)
  (hconfig : ∀ o ∈ eligible, ∀ data, o.config = some data → data = config o.host)

include hlimit hstores hconfig

/-- What has converged stays so, whatever becomes of the turns, and is left alone in them. -/
theorem leftAlone_of_converged {r : Except Stop (List ApplyOutcome)}
    (h : Turnwise (applyTurns S options stabilize) eligible w r w') (hes : w.Gains w' es)
    (hconverged : Converged applied config host w.state) :
    Converged applied config host w'.state ∧ LeftAlone host es := by
  have hturns := h.invariant (I := fun w => Converged applied config host w.state) (R := fun _ => True)
    (extends_of_ends_applyTurn hlimit) (fun o ho w r w' es h hes hw =>
      ⟨converged_of_turn_of_converged hlimit hstores h (hconfig o ho) hw,
        leftAlone_of_turn hlimit hstores h (hconfig o ho) hes hw, fun _ _ => trivial⟩) hes hconverged
  exact ⟨hturns.1, hturns.2.1⟩

/-- An accepted commit is not lost in what follows. -/
theorem converged_of_accepted_in_turns {r : Except Stop (List ApplyOutcome)}
    (h : Turnwise (applyTurns S options stabilize) eligible w r w') (hes : w.Gains w' es)
    (haccepted : CommitAccepted es host) : Converged applied config host w'.state := by
  obtain ⟨t, client, data, reply, hhost, hmem⟩ := haccepted
  obtain ⟨before, after, rfl⟩ := List.append_of_mem hmem
  -- The commit stands in one turn, and what that turn reaches the later ones leave as it is.
  obtain ⟨hbegins, -, hturn, hpiece, -, hrest, hnext, -⟩ :=
    h.stands (extends_of_ends_applyTurn hlimit) hes
  have hdone := converged_of_accepted hlimit hstores hturn (hconfig _ hbegins.mem) hpiece
    ⟨t, client, data, reply, hhost, by simp⟩
  rcases hnext with ⟨a, r₂, -, hlater⟩ | ⟨stop, -, -, rfl⟩
  · obtain ⟨hitems, -, -⟩ := hbegins
    subst hitems
    have hlaterConfig := (List.forall_mem_cons.1 (List.forall_mem_append.1 hconfig).2).2
    exact (leftAlone_of_converged hlimit hstores hlaterConfig hlater hrest hdone).1
  · exact hdone

theorem converged_of_series (hdry : options.dryRun = false) {as : List ApplyOutcome}
    (h : Series (applyTurns S options stabilize) eligible w as w') (hskipped : ∀ a ∈ as, a ≠ .skipped) :
    ∀ o ∈ eligible, Converged applied config o.host w'.state := by
  induction h with
  | nil => simp
  | @cons o rest w a as w₁ w' hturn hturns ih =>
    obtain ⟨hfirst, hrest⟩ := List.forall_mem_cons.1 hconfig
    obtain ⟨ha, has⟩ := List.forall_mem_cons.1 hskipped
    refine List.forall_mem_cons.2 ⟨?_, ih hrest has⟩
    obtain ⟨later, hlater⟩ := exists_gains_of_applyTurns hlimit (.finished hturns)
    exact (leftAlone_of_converged hlimit hstores hrest (.finished hturns) hlater
      (converged_of_turn hlimit hstores hturn hfirst hdry rfl ha)).1

theorem unchanged_of_converged {r : Except Stop (List ApplyOutcome)}
    (h : Turnwise (applyTurns S options stabilize) eligible w r w') (hes : w.Gains w' es)
    (hconverged : ∀ o ∈ eligible, Converged applied config o.host w.state) :
    (∀ e ∈ es, ∃ o ∈ eligible, Prepares o.node e.call) ∧
      ∀ as, r = .ok as → ∀ a ∈ as, a = .unchanged := by
  refine (h.invariant (I := fun w => ∀ o ∈ eligible, Converged applied config o.host w.state)
    (extends_of_ends_applyTurn hlimit) (fun o ho w r w' es h hes hw => ?_) hes hconverged).2
  obtain ⟨hquiet, ha, -⟩ := prepares_of_converged hlimit hstores h (hconfig o ho) (hw o ho) hes
  exact ⟨fun o' ho' => converged_of_turn_of_converged hlimit hstores h (hconfig o ho) (hw o' ho'),
    fun e he => ⟨o, ho, hquiet e he⟩, ha⟩

end

/-! ## The run -/

theorem StartsEtcd.not_overwrites {seed : Node} {c : Call} (h : StartsEtcd seed c) :
    ¬ c.Overwrites host := by
  rintro ⟨client, -, ⟨data, rfl⟩ | ⟨q, rfl⟩⟩ <;> rcases h with h | ⟨client', -, h | h | h⟩ <;> cases h

theorem Observes.not_overwrites {c : Call} (h : Observes c) : ¬ c.Overwrites host := by
  obtain ⟨node, step, rfl⟩ := h
  rintro ⟨client, -, ⟨data, h⟩ | ⟨q, h⟩⟩ <;> cases step <;> cases h

/-- What was rendered for a host is the configuration it should have. -/
def Renders (config : String → Bytes) (es : List Entry) : Prop :=
  ∀ t node data, .answered t (.render node) (.ok data) ∈ es → data = config node.host

theorem renders_append {es es' : List Entry} :
    Renders config (es ++ es') ↔ Renders config es ∧ Renders config es' := by
  simp only [Renders, List.mem_append, or_imp, forall_and]

/-- The host passes the preflight of a run that is begun in `w`. -/
def Policy.Clears (p : Policy) (S : Setting σ) (w : World σ) (host : String) : Prop :=
  ∃ gathered eligible w₁, Passes p S w gathered eligible w₁ ∧ host ∈ eligible.map (·.host)

theorem Policy.clears_iff {p : Policy} {gathered : List Entry} {w₁ : World σ}
    (h : Passes p S w gathered eligible w₁) : p.Clears S w host ↔ ∃ o ∈ eligible, o.host = host := by
  refine ⟨fun ⟨gathered', eligible', w₁', h', hhost⟩ => ?_, fun hhost => ?_⟩
  · obtain ⟨hgather, -, hcheck⟩ := h
    obtain ⟨hgather', -, hcheck'⟩ := h'
    cases (hgather.unique hgather').1
    cases hcheck.symm.trans hcheck'
    exact List.mem_map.1 hhost
  · exact ⟨gathered, eligible, w₁, h, List.mem_map.2 hhost⟩

/-- The stages of an apply run: it gathers, the eligible nodes have their turns, and what follows concerns
no configuration. Only the turns change what the hosts have. -/
inductive ApplyStages (options : ApplyOptions) (S : Setting σ) (applied : String → σ → Option Bytes)
    (w : World σ) : List Entry → Except Stop ApplyReport → World σ → Prop
  | idle {log stop w'} (hobserves : ∀ e ∈ log, Observes e.call)
      (hkept : ∀ host, applied host w'.state = applied host w.state) :
      ApplyStages options S applied w log (.error stop) w'
  | turns {gathered eligible w₁ stabilize es r₁ v rest r w'}
      (hpass : Passes options.policy S w gathered eligible w₁)
      (hgather : ∀ host, applied host w₁.state = applied host w.state)
      (hturns : Turnwise (applyTurns S options stabilize) eligible w₁ r₁ v) (hes : w₁.Gains v es)
      (hcalls : ∀ e ∈ rest, ∃ seed, StartsEtcd seed e.call)
      (hkept : ∀ host, applied host w'.state = applied host v.state)
      (hreport : ∀ report, r = .ok report → r₁ = .ok (report.outcomes.map (·.2))) :
      ApplyStages options S applied w (gathered ++ es ++ rest) r w'

theorem Passes.config_of_renders {p : Policy} {gathered : List Entry} {w₁ : World σ}
    (h : Passes p S w gathered eligible w₁) (hhosts : (S.nodes.map (·.host)).Nodup)
    (hrenders : Renders config gathered) :
    ∀ o ∈ eligible, ∀ data, o.config = some data → data = config o.host := by
  intro o ho data hdata
  obtain ⟨t, hmem⟩ := (h.config_eq_some_iff hhosts ho).1 hdata
  exact hrenders t o.node data hmem

theorem applyStages_of_ends (hlimit : S.limit = none) (hstores : S.environment.Stores applied)
    {r : Except Stop ApplyReport} (h : (Work.apply options).Ends S w r w') (hlog : w.Gains w' log) :
    ApplyStages options S applied w log r w' := by
  have hgathers {r : Except Stop (List Observation)} {w₁ : World σ} (h : Work.gather.Ends S w r w₁)
      (host : String) : applied host w₁.state = applied host w.state :=
    Work.keeps_of_ends_gather ((hstores.kept host).mono fun _ hc => hc.not_overwrites) h
  rw [Work.apply_eq] at h
  cases Work.guarded_of_ends h with
  | silent hgather =>
    exact .idle (fun e he => ((hgather.extends .gather).forall_mem hlog e he).1) (hgathers hgather)
  | refused hgather =>
    exact .idle (fun e he => ((hgather.extends .gather).forall_mem hlog e he).1) (hgathers hgather)
  | @passed gathered eligible w₁ _ _ hpass hgo =>
    have hgather := hpass
    obtain ⟨hgather, -, -⟩ := hgather
    cases applyCourse_of_ends hgo with
    | unapplied hturns =>
      obtain ⟨es, hes⟩ := exists_gains_of_applyTurns hlimit hturns
      rw [hlog.unique (hpass.gains.trans hes), ← List.append_nil (gathered ++ es)]
      exact .turns hpass (hgathers hgather) hturns hes (by simp) (fun _ => rfl) (by simp)
    | applied hturns =>
      obtain ⟨es, hes⟩ := exists_gains_of_applyTurns hlimit (.finished hturns)
      rw [hlog.unique (hpass.gains.trans hes), ← List.append_nil (gathered ++ es)]
      refine .turns hpass (hgathers hgather) (.finished hturns) hes (by simp) (fun _ => rfl) ?_
      rintro report ⟨⟩
      rw [hturns.map_snd_zip]
    | @started as v r₁ _ hturns _ hetcd =>
      obtain ⟨es, hes⟩ := exists_gains_of_applyTurns hlimit (.finished hturns)
      have hextends := hetcd.extends (.ensureEtcd hlimit)
      obtain ⟨rest, hrest, hcalls⟩ := hextends.gains
      rw [hlog.unique ((hpass.gains.trans hes).trans hrest)]
      refine .turns hpass (hgathers hgather) (.finished hturns) hes (fun e he => ?_) (fun host => ?_)
        fun report hr => ?_
      · obtain ⟨seed, -, hstarts⟩ := (hcalls e he).1
        exact ⟨seed, hstarts⟩
      · exact hetcd.keeps .ensureEtcd hextends
          ((hstores.kept host).mono fun _ ⟨_, _, hstarts⟩ => hstarts.not_overwrites)
      · cases r₁ with
        | error => cases hr
        | ok etcd =>
          cases hr
          rw [hturns.map_snd_zip]

section

variable (hlimit : S.limit = none) (hhosts : (S.nodes.map (·.host)).Nodup)
  (hstores : S.environment.Stores applied) {r : Except Stop ApplyReport}
  (h : ApplyStages options S applied w log r w') (hrenders : Renders config log)

include hlimit hhosts hstores h hrenders

/-- What has converged stays so, however the run ends, and is left alone by it. -/
theorem ApplyStages.leftAlone (hconverged : Converged applied config host w.state) :
    Converged applied config host w'.state ∧ LeftAlone host log := by
  cases h with
  | idle hobserves hkept =>
    exact ⟨(hkept host).trans hconverged,
      leftAlone_of_not fun e he => ⟨(hobserves e he).not_overwrites, (hobserves e he).not_subscribes⟩⟩
  | turns hpass hgather hturns hes hcalls hkept hreport =>
    have hconfig := hpass.config_of_renders hhosts (renders_append.1 (renders_append.1 hrenders).1).1
    obtain ⟨hafter, halone⟩ :=
      leftAlone_of_converged hlimit hstores hconfig hturns hes ((hgather host).trans hconverged)
    refine ⟨(hkept host).trans hafter, leftAlone_append.2 ⟨leftAlone_append.2 ⟨?_, halone⟩, ?_⟩⟩
    · exact leftAlone_of_not fun e he =>
        ⟨(hpass.observes e he).not_overwrites, (hpass.observes e he).not_subscribes⟩
    · refine leftAlone_of_not fun e he => ?_
      obtain ⟨seed, hstarts⟩ := hcalls e he
      exact ⟨hstarts.not_overwrites, hstarts.not_subscribes⟩

theorem ApplyStages.converged_of_accepted (haccepted : CommitAccepted log host) :
    Converged applied config host w'.state := by
  obtain ⟨t, client, data, reply, hhost, hmem⟩ := haccepted
  cases h with
  | idle hobserves hkept => exact absurd ⟨client, data, rfl⟩ (hobserves _ hmem).not_commits
  | @turns gathered eligible _ _ es _ _ rest _ _ hpass hgather hturns hes hcalls hkept hreport =>
    have hconfig := hpass.config_of_renders hhosts (renders_append.1 (renders_append.1 hrenders).1).1
    have hturn : .answered t (.request client (.applyConfiguration data false)) (.ok reply) ∈ es := by
      rcases List.mem_append.1 hmem with hmem | hmem
      · rcases List.mem_append.1 hmem with hmem | hmem
        · exact absurd ⟨client, data, rfl⟩ (hpass.observes _ hmem).not_commits
        · exact hmem
      · obtain ⟨seed, hstarts⟩ := hcalls _ hmem
        exact absurd ⟨client, data, rfl⟩ hstarts.not_commits
    exact (hkept host).trans
      (converged_of_accepted_in_turns hlimit hstores hconfig hturns hes ⟨t, client, data, reply, hhost, hturn⟩)

/-- After a run that left nothing out, every host it cleared has converged. -/
theorem ApplyStages.converged_of_ok (hdry : options.dryRun = false) {report : ApplyReport}
    (hr : r = .ok report) (hskipped : ∀ x ∈ report.outcomes, x.2 ≠ .skipped)
    (hcleared : options.policy.Clears S w host) : Converged applied config host w'.state := by
  cases h with
  | idle => cases hr
  | turns hpass hgather hturns hes hcalls hkept hreport =>
    have hconfig := hpass.config_of_renders hhosts (renders_append.1 (renders_append.1 hrenders).1).1
    obtain ⟨o, ho, rfl⟩ := (Policy.clears_iff hpass).1 hcleared
    obtain rfl := hreport report hr
    cases hturns with
    | finished hseries =>
      exact (hkept o.host).trans
        (converged_of_series hlimit hstores hconfig hdry hseries (List.forall_mem_map.2 hskipped) o ho)

theorem ApplyStages.unchanged
    (hconverged : ∀ host, options.policy.Clears S w host → Converged applied config host w.state) :
    (∀ e ∈ log, ¬ e.call.Commits ∧ ¬ e.call.Subscribes) ∧
      ∀ report, r = .ok report → ∀ x ∈ report.outcomes, x.2 = .unchanged := by
  cases h with
  | idle hobserves hkept =>
    exact ⟨fun e he => ⟨(hobserves e he).not_commits, (hobserves e he).not_subscribes⟩, by simp⟩
  | turns hpass hgather hturns hes hcalls hkept hreport =>
    have hconfig := hpass.config_of_renders hhosts (renders_append.1 (renders_append.1 hrenders).1).1
    obtain ⟨hquiet, hunchanged⟩ := unchanged_of_converged hlimit hstores hconfig hturns hes fun o ho =>
      (hgather o.host).trans (hconverged o.host ((Policy.clears_iff hpass).2 ⟨o, ho, rfl⟩))
    refine ⟨List.forall_mem_append.2 ⟨List.forall_mem_append.2 ⟨?_, ?_⟩, ?_⟩, ?_⟩
    · exact fun e he => ⟨(hpass.observes e he).not_commits, (hpass.observes e he).not_subscribes⟩
    · intro e he
      obtain ⟨o, -, hprepares⟩ := hquiet e he
      exact ⟨hprepares.not_commits, hprepares.not_subscribes⟩
    · intro e he
      obtain ⟨seed, hstarts⟩ := hcalls e he
      exact ⟨hstarts.not_commits, hstarts.not_subscribes⟩
    · exact fun report hr => List.forall_mem_map.1 (hunchanged _ (hreport report hr))

end

/-! ## Two runs -/

/-- Nodes keep what is committed to them, and so applying again is safe. However the first run ended, the
second leaves alone every node that accepted a commit of the first and every node that had converged
already. If the first run succeeded, was no rehearsal and left out no node that the second run works on,
the second run finds everything unchanged. In between no node may lose its configuration; all else may
differ, such as the options and the other answers that the nodes give. -/
theorem applying_again_is_safe (S S' : Setting σ) (options options' : ApplyOptions) (w w' v v' : World σ)
    (r r' : Except Stop ApplyReport) (log log' : List Entry) (applied : String → σ → Option Bytes)
    (config : String → Bytes) (hlimit : S.limit = none) (hlimit' : S'.limit = none)
    (hhosts : (S.nodes.map (·.host)).Nodup) (hhosts' : (S'.nodes.map (·.host)).Nodup)
    (hstores : S.environment.Stores applied) (hstores' : S'.environment.Stores applied)
    (h : (Work.apply options).Ends S w r w') (hlog : w.Gains w' log)
    (h' : (Work.apply options').Ends S' v r' v') (hlog' : v.Gains v' log')
    (hrenders : Renders config (log ++ log'))
    (hkept : ∀ host, Converged applied config host w'.state → Converged applied config host v.state) :
    (∀ host, CommitAccepted log host ∨ Converged applied config host w.state ∨
        Converged applied config host v.state → LeftAlone host log') ∧
      ∀ report, r = .ok report → options.dryRun = false → (∀ x ∈ report.outcomes, x.2 ≠ .skipped) →
        (∀ host, options'.policy.Clears S' v host → options.policy.Clears S w host) →
        (∀ e ∈ log', ¬ e.call.Commits ∧ ¬ e.call.Subscribes) ∧
          ∀ report', r' = .ok report' → ∀ x ∈ report'.outcomes, x.2 = .unchanged := by
  have hfirst := applyStages_of_ends hlimit hstores h hlog
  have hsecond := applyStages_of_ends hlimit' hstores' h' hlog'
  obtain ⟨hrenders₁, hrenders₂⟩ := renders_append.1 hrenders
  constructor
  · intro host hcases
    have hconverged : Converged applied config host v.state := by
      rcases hcases with haccepted | hbefore | hnow
      · exact hkept host (hfirst.converged_of_accepted hlimit hhosts hstores hrenders₁ haccepted)
      · exact hkept host (hfirst.leftAlone hlimit hhosts hstores hrenders₁ hbefore).1
      · exact hnow
    exact (hsecond.leftAlone hlimit' hhosts' hstores' hrenders₂ hconverged).2
  · intro report hr hdry hskipped hcleared
    refine hsecond.unchanged hlimit' hhosts' hstores' hrenders₂ fun host hhost => hkept host ?_
    exact hfirst.converged_of_ok hlimit hhosts hstores hrenders₁ hdry hr hskipped (hcleared host hhost)

def keeperDetails (v : Option Bytes) (data : Bytes) : String :=
  if v = some data then "\nNo changes." else "+ new"

/-- A node that keeps what it is given. -/
def keeper (config : Bytes) : Conduct (Option Bytes) where
  connect v := ⟨v, fun v => (v, .ok .mutual)⟩
  render v := ⟨v, fun v => (v, .ok config)⟩
  request v _
    | .status => ⟨v, fun v => (v, .ok { stage := .running, readiness := { ready := true } })⟩
    | .extensions => ⟨v, fun v => (v, .ok [])⟩
    | .osVersion => ⟨v, fun v => (v, .ok "v1")⟩
    | .applyConfiguration data true => ⟨v, fun v =>
      (v, .ok { mode := "auto", details := keeperDetails v data, warnings := [] })⟩
    | .applyConfiguration data false => ⟨v, fun _ =>
      (some data, .ok { mode := "auto", details := "", warnings := [] })⟩
    | _ => ⟨v, fun v => (v, .error (.unavailable "keeper"))⟩

def twoKeepers : Setting (String → Option Bytes) :=
  { twoNodes with
    environment := Conduct.world (fun host => keeper (Bytes.ofText host)) (fun _ => 0) fun _ => .ok true }

theorem suffix_keeperDetails_iff {v : Option Bytes} {data : Bytes} :
    "\nNo changes.".toList <:+ (keeperDetails v data).toList ↔ v = some data := by
  unfold keeperDetails
  split
  · next hsame => simp [hsame]
  · next hother => simpa [hother] using by decide +kernel

theorem stores_twoKeepers : twoKeepers.environment.Stores fun host s => s host where
  kept host s t c hc := by
    cases c with
    | connect node => exact Reaction.served_keeps fun _ => ⟨rfl, fun _ => rfl⟩
    | render node => exact Reaction.served_keeps fun _ => ⟨rfl, fun _ => rfl⟩
    | display text => exact ⟨rfl, fun _ => rfl⟩
    | ask question => exact ⟨rfl, fun _ => rfl⟩
    | request client q =>
      refine Reaction.served_keeps fun hhost => ?_
      cases q with
      | applyConfiguration data dryRun =>
        cases dryRun with
        | false => exact absurd ⟨client, hhost, .inl ⟨data, rfl⟩⟩ hc
        | true => exact ⟨rfl, fun _ => rfl⟩
      | _ => exact ⟨rfl, fun _ => rfl⟩
  stored s t client data reply s₁ h := by
    obtain ⟨rfl, -⟩ := Prod.mk.inj h
    exact Function.update_self ..
  previewed s t client data reply s₁ h := by
    obtain ⟨-, hreply⟩ := Prod.mk.inj h
    have hdetails := congrArg ApplyReply.details (Except.ok.inj hreply)
    rw [← hdetails]
    change _ <:+ (keeperDetails (Function.update s client.node.host _ client.node.host) data).toList ↔ _
    rw [Function.update_self]
    exact suffix_keeperDetails_iff

def Entry.rendersName : Entry → Bool
  | .answered _ (.render node) (.ok data) => data == Bytes.ofText node.host
  | _ => true

theorem renders_of_all {es : List Entry} (h : es.all Entry.rendersName = true) :
    Renders Bytes.ofText es :=
  fun _ _ _ hmem => eq_of_beq (List.all_eq_true.1 h _ hmem)

theorem applied_twice :
    ∃ report w' report' v',
      (Work.apply { skipPostApplyChecks := true }).Ends twoKeepers { state := fun _ => none } (.ok report) w' ∧
      (Work.apply {}).Ends twoKeepers { state := w'.state } (.ok report') v' ∧
      report.outcomes = [("a", .changed), ("b", .changed)] ∧
      Renders Bytes.ofText (w'.journal.toList ++ v'.journal.toList) := by
  have hruns : ((Work.apply { skipPostApplyChecks := true }).result? twoKeepers { state := fun _ => none }).bind
      (fun p => ((Work.apply {}).result? twoKeepers { state := p.2.state }).map fun q =>
        (p.1.toOption.map (·.outcomes), q.1.isOk,
          (p.2.journal.toList ++ q.2.journal.toList).all Entry.rendersName)) =
      some (some [("a", .changed), ("b", .changed)], true, true) := by
    decide +kernel
  obtain ⟨⟨r, w'⟩, h, hsecond⟩ := Option.bind_eq_some_iff.1 hruns
  obtain ⟨⟨r', v'⟩, h', hresults⟩ := Option.map_eq_some_iff.1 hsecond
  obtain ⟨houtcomes, hresults⟩ := Prod.mk.inj hresults
  obtain ⟨hok, hnames⟩ := Prod.mk.inj hresults
  cases r with
  | error => cases houtcomes
  | ok report =>
    cases r' with
    | error => cases hok
    | ok report' =>
      exact ⟨report, w', report', v', h, h', Option.some.inj houtcomes, renders_of_all hnames⟩

theorem second_run_changes_nothing :
    ∃ report w' report' v',
      (Work.apply { skipPostApplyChecks := true }).Ends twoKeepers { state := fun _ => none } (.ok report) w' ∧
      (Work.apply {}).Ends twoKeepers { state := w'.state } (.ok report') v' ∧
      report.outcomes = [("a", .changed), ("b", .changed)] ∧
      (∀ e ∈ v'.journal.toList, ¬ e.call.Commits ∧ ¬ e.call.Subscribes) ∧
      ∀ x ∈ report'.outcomes, x.2 = .unchanged := by
  obtain ⟨report, w', report', v', h, h', houtcomes, hrenders⟩ := applied_twice
  have hhosts : (twoKeepers.nodes.map (·.host)).Nodup := by decide
  obtain ⟨-, hquiet⟩ := applying_again_is_safe twoKeepers twoKeepers { skipPostApplyChecks := true } {}
    { state := fun _ => none } w' { state := w'.state } v' (.ok report) (.ok report') _ _ _ _ rfl rfl hhosts
    hhosts stores_twoKeepers stores_twoKeepers h rfl h' rfl hrenders fun _ hconverged => hconverged
  have hcleared (host : String) (hhost : Policy.Clears (ApplyOptions.policy {}) twoKeepers
      { state := w'.state } host) :
      Policy.Clears (ApplyOptions.policy { skipPostApplyChecks := true }) twoKeepers
        { state := fun _ => none } host := by
    obtain ⟨_, eligible', _, hpass', hhost⟩ := hhost
    have hnode : host ∈ ["a", "b"] := by
      have hsublist := hpass'.sublist_nodes.map (·.host)
      rw [List.map_map] at hsublist
      exact hsublist.subset hhost
    rw [Work.apply_eq] at h
    cases Work.guarded_of_ends h with
    | @passed gathered eligible w₁ _ _ hpass hgo =>
      refine ⟨gathered, eligible, w₁, hpass, ?_⟩
      rw [← Work.hosts_of_ends_applyEligible hgo, houtcomes]
      exact hnode
  obtain ⟨hsilent, hunchanged⟩ := hquiet report rfl rfl (by simp [houtcomes]) hcleared
  exact ⟨report, w', report', v', h, h', houtcomes, hsilent, hunchanged report' rfl⟩

end Rollout
