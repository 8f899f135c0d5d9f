import Rollout.Proofs.Apply.Course

/-!
# Applying rolls over the nodes

With stabilization on, the turn of a node whose configuration has changed is over only when the node is
stable. `Turns` is a series of turns, each over before the next begins. Whatever an apply run with
stabilization on does, what it adds to the journal are such turns, then perhaps one that stops the run;
every statement about the order of calls and commits is read off this.
-/

namespace Rollout

variable {σ : Type}

/-- The turn begun in `w` is over in the world `w'`, without an error. If a commit was accepted in it,
the node has been watched until it was stable. -/
inductive TurnOver (S : Setting σ) (options : ApplyOptions) (o : Observation) (w : World σ) :
    ApplyOutcome → World σ → Prop
  | settled {outcome w' es} (hraised : ¬ S.RaisedBy w.journal w.now)
      (hturn : (Work.applyNode o options).Ends S w (.ok outcome) w')
      (hgains : w.Gains w' es) (hcommits : commits es = []) : TurnOver S options o w outcome w'
  | watched {w₁ w' es t} (hraised : ¬ S.RaisedBy w.journal w.now)
      (hturn : (Work.applyNode o options).Ends S w (.ok .changed) w₁)
      (hgains : w.Gains w₁ es) (hcommits : commits es = [t])
      (hstable : (Work.waitStable o.node stableWindow).Ends S w₁ (.ok ()) w') :
      TurnOver S options o w .changed w'

inductive TurnFails (S : Setting σ) (options : ApplyOptions) (o : Observation) (w : World σ) :
    Stop → World σ → Prop
  | cancelled (hraised : S.RaisedBy w.journal w.now) :
      TurnFails S options o w (.error .cancelled) w
  /-- The node cannot be reached, refuses the preview or the commit, or the operator cannot be asked. -/
  | refused {stop w'} (hraised : ¬ S.RaisedBy w.journal w.now)
      (hturn : (Work.applyNode o options).Ends S w (.error stop) w') :
      TurnFails S options o w stop w'
  | unstable {stop w₁ w'} (hraised : ¬ S.RaisedBy w.journal w.now)
      (hturn : (Work.applyNode o options).Ends S w (.ok .changed) w₁)
      (hstable : (Work.waitStable o.node stableWindow).Ends S w₁ (.error stop) w') :
      TurnFails S options o w stop w'

/-- The turns of the records, begun in `w`, are over in `w'`, each without an error. -/
inductive Turns (S : Setting σ) (options : ApplyOptions) :
    List Observation → World σ → List ApplyOutcome → World σ → Prop
  | nil {w} : Turns S options [] w [] w
  | cons {o rest w outcome outcomes w₁ w'} (hturn : TurnOver S options o w outcome w₁)
      (hrest : Turns S options rest w₁ outcomes w') :
      Turns S options (o :: rest) w (outcome :: outcomes) w'

def Spaced (es : List Entry) : Prop :=
  (commits es).Pairwise fun t t' => t + stableWindow ≤ t'

/-- Is stabilization on in a run over these nodes? -/
def ApplyOptions.Stabilizes (options : ApplyOptions) (eligible : List Observation) : Prop :=
  options.skipPostApplyChecks = false ∧ options.dryRun = false ∧ allInMaintenance eligible = false

/-- What holds of everything the apply phase of a run adds to the journal from `w` on, and of its result,
when stabilization is on. -/
structure RollsInTurn (S : Setting σ) (options : ApplyOptions) (eligible : List Observation)
    (w w' : World σ) (es : List Entry) (r : Except Stop ApplyReport) : Prop where
  /-- A node is called only when the turns of all before it are over. -/
  in_turn : ∀ before t c after, es = before ++ .sent t c :: after →
    ∀ earlier o later, eligible = earlier ++ o :: later → c.node? = some o.node →
      ∃ outcomes v front, Turns S options earlier w outcomes v ∧ w.Gains v front ∧ front <+: before
  /-- An error comes from one turn, and later nodes are not called at all; or all turns are over and etcd
  cannot be started. -/
  stopped : ∀ stop, r = .error stop →
    (∃ done o later outcomes v, eligible = done ++ o :: later ∧ Turns S options done w outcomes v ∧
      TurnFails S options o v stop w' ∧
      ∀ o' ∈ later, ∀ e ∈ es, e.call.node? ≠ some o'.node) ∨
    ∃ outcomes v, Turns S options eligible w outcomes v ∧ options.autoBootstrap = true ∧
      (Work.ensureEtcd (eligible.map (·.node))).Ends S v (.error stop) w'
  spaced : Spaced es
  /-- A report tells the outcome of each turn. -/
  reported : ∀ report, r = .ok report → ∃ outcomes v, Turns S options eligible w outcomes v ∧
    report.outcomes = (eligible.map (·.host)).zip outcomes

/-! ## One turn -/

variable {S : Setting σ} {options : ApplyOptions} {o : Observation} {w w' : World σ}

/-- With stabilization on, a turn is over or stops the run. -/
theorem turn_cases (hdry : options.dryRun = false) {r : Except Stop ApplyOutcome}
    (h : (Work.applyTurn options true o).Ends S w r w') :
    (∃ outcome, r = .ok outcome ∧ TurnOver S options o w outcome w') ∨
      ∃ stop, r = .error stop ∧ TurnFails S options o w stop w' := by
  rcases Work.ends_bind_iff.1 h with ⟨⟨⟩, w₁, hcheck, hrest⟩ | ⟨e, hcheck, rfl⟩
  · obtain ⟨⟨-, hr⟩ | ⟨hraised, -⟩, rfl⟩ := Work.ends_checkpoint_iff.1 hcheck
    · cases hr
    rcases Work.ends_bind_iff.1 hrest with ⟨outcome, w₂, hturn, hend⟩ | ⟨e, hturn, rfl⟩
    · obtain ⟨es, hgains, htrace⟩ := Work.Leaves.applyNode w₁ _ w₂ hturn
      rcases htrace.accepted_cases with ⟨hr, t, hcommits⟩ | ⟨hr, hcommits⟩
      · cases hr
        rw [if_pos (by simp [hdry])] at hend
        rcases Work.ends_bind_iff.1 hend with ⟨⟨⟩, w₃, hstable, hend⟩ | ⟨e, hstable, rfl⟩
        · obtain ⟨rfl, rfl⟩ := Work.ends_pure_iff.1 hend
          exact .inl ⟨_, rfl, .watched hraised hturn hgains hcommits hstable⟩
        · exact .inr ⟨e, rfl, .unstable hraised hturn hstable⟩
      · have hunchanged : outcome ≠ .changed := fun ho => hr (ho ▸ rfl)
        rw [if_neg (by simp [hunchanged])] at hend
        obtain ⟨rfl, rfl⟩ := Work.ends_pure_iff.1 hend
        exact .inl ⟨outcome, rfl, .settled hraised hturn hgains hcommits⟩
    · exact .inr ⟨e, rfl, .refused hraised hturn⟩
  · obtain ⟨⟨hraised, hr⟩ | ⟨-, hr⟩, rfl⟩ := Work.ends_checkpoint_iff.1 hcheck
    · cases hr
      exact .inr ⟨_, rfl, .cancelled hraised⟩
    · cases hr

/-- One commit is accepted in a turn at most, and a turn that is over goes on for a whole window after
it. -/
theorem commits_of_turn (hlimit : S.limit = none) (hdry : options.dryRun = false)
    {r : Except Stop ApplyOutcome} {es : List Entry} (h : applyTurns S options true o w r w')
    (hes : w.Gains w' es) :
    (commits es).length ≤ 1 ∧ ∀ a, r = .ok a → ∀ t ∈ commits es, t + stableWindow ≤ w'.now := by
  refine (Work.watchedTurn_of_ends_applyTurn h).stamped hlimit
    (fun e t he => (e.commits_of_commit? he).2) (fun e he => ?_) (fun log r htrace => ?_) hes
  · cases hcommit : e.commit? with
    | none => rfl
    | some t => exact absurd (e.commits_of_commit? hcommit).1 he.not_commits
  · rcases htrace.accepted_cases with ⟨hr, t, ht⟩ | ⟨-, hnil⟩
    · exact .inr ⟨_, t, hr, by simp [ApplyOptions.watches, hdry], ht⟩
    · exact .inl hnil

/-! ## All turns -/

variable {v : World σ} {eligible : List Observation} {r : Except Stop (List ApplyOutcome)}
  {outcomes : List ApplyOutcome}

theorem turns_of_series (hdry : options.dryRun = false)
    (h : Series (applyTurns S options true) eligible w outcomes v) :
    Turns S options eligible w outcomes v := by
  induction h with
  | nil => exact .nil
  | cons hturn _ ih =>
    rcases turn_cases hdry hturn with ⟨outcome, hr, hover⟩ | ⟨stop, hr, -⟩
    · cases hr
      exact .cons hover ih
    · cases hr

theorem spaced_of_turnwise (hlimit : S.limit = none) (hdry : options.dryRun = false)
    (h : Turnwise (applyTurns S options true) eligible w r v) {es : List Entry} (hes : w.Gains v es) :
    Spaced es := by
  refine (h.spaced (extends_of_ends_applyTurn hlimit) (fun e t he => (e.commits_of_commit? he).2)
    (fun o w r w' es hturn hgains => ?_) (fun o w a w' es hturn hgains => ?_) hes).1
  · exact (commits_of_turn hlimit hdry hturn hgains).1
  · exact (commits_of_turn hlimit hdry hturn hgains).2 a rfl

theorem turns_before_call (hlimit : S.limit = none) (hdry : options.dryRun = false)
    (hhosts : (eligible.map (·.host)).Nodup) (h : Turnwise (applyTurns S options true) eligible w r v)
    {before after : List Entry} {e : Entry} (hes : w.Gains v (before ++ e :: after))
    {earlier later : List Observation} (hsplit : eligible = earlier ++ o :: later)
    (hnode : e.call.node? = some o.node) :
    ∃ outcomes v' front, Turns S options earlier w outcomes v' ∧ w.Gains v' front ∧
      front <+: before := by
  have hextends : ∀ o w r w', applyTurns S options true o w r w' → w.Extends (InTurn o.node) w' :=
    extends_of_ends_applyTurn hlimit
  obtain ⟨⟨hitems, hearlier, hfront⟩, rfl, hturn, hpiece, -, -, -, -⟩ := h.stands hextends hes
  rcases ((hextends _ _ _ _ hturn).forall_mem hpiece e (by simp)).1 with hcall | hcall
  · have hhost := congrArg Node.host (Option.some.inj (hcall.symm.trans hnode))
    obtain ⟨rfl, rfl, rfl⟩ := split_eq_of_nodup (f := (·.host)) hhosts hsplit hitems hhost
    exact ⟨_, _, _, turns_of_series hdry hearlier, hfront, List.prefix_append ..⟩
  · cases hcall.symm.trans hnode

/-! ## The apply phase of a run -/

theorem StartsEtcd.not_commits {seed : Node} {c : Call} (h : StartsEtcd seed c) : ¬ c.Commits := by
  rintro ⟨client, data, rfl⟩
  rcases h with h | ⟨client', -, h | h | h⟩ <;> cases h

theorem rollsInTurn_of_series (hlimit : S.limit = none) (hdry : options.dryRun = false)
    (hhosts : (eligible.map (·.host)).Nodup)
    (hturns : Series (applyTurns S options true) eligible w outcomes v)
    (hrest : v.Extends (fun c => ∃ seed ∈ eligible.map (·.node), StartsEtcd seed c) w')
    {r : Except Stop ApplyReport}
    (hok : ∀ report, r = .ok report → report.outcomes = (eligible.map (·.host)).zip outcomes)
    (herror : ∀ stop, r = .error stop → options.autoBootstrap = true ∧
      (Work.ensureEtcd (eligible.map (·.node))).Ends S v (.error stop) w') :
    ∃ es, w.Gains w' es ∧ RollsInTurn S options eligible w w' es r := by
  have hextends : ∀ o w r w', applyTurns S options true o w r w' → w.Extends (InTurn o.node) w' :=
    extends_of_ends_applyTurn hlimit
  obtain ⟨log, hlog, -⟩ := (Turnwise.extends_of_turns hextends (.finished hturns)).gains
  obtain ⟨rest, hgains, hcalls⟩ := hrest.gains
  refine ⟨log ++ rest, hlog.trans hgains, ?_, fun stop hr => ?_, ?_, fun report hr => ?_⟩
  · intro before t c after hes earlier o later hsplit hnode
    rcases append_eq_append_cons_cases hes with ⟨mid, rfl, -⟩ | ⟨mid, rfl, -⟩
    · exact turns_before_call hlimit hdry hhosts (.finished hturns) hlog hsplit hnode
    · subst hsplit
      obtain ⟨as₁, as₂, u, hearlier, hlater⟩ := hturns.append_cases
      obtain ⟨front, hfront, -⟩ := (Turnwise.extends_of_turns hextends (.finished hearlier)).gains
      obtain ⟨back, hback, -⟩ := (Turnwise.extends_of_turns hextends (.finished hlater)).gains
      obtain rfl := hlog.unique (hfront.trans hback)
      exact ⟨as₁, u, front, turns_of_series hdry hearlier, hfront, by simp⟩
  · exact .inr ⟨outcomes, v, turns_of_series hdry hturns, herror stop hr⟩
  · have hnone : commits rest = [] := commits_eq_nil fun e he => by
      obtain ⟨seed, -, hseed⟩ := (hcalls e he).1
      exact hseed.not_commits
    unfold Spaced
    rw [commits_append, hnone, List.append_nil]
    exact spaced_of_turnwise hlimit hdry (.finished hturns) hlog
  · exact ⟨outcomes, v, turns_of_series hdry hturns, hok report hr⟩

theorem rollsInTurn_of_stopped (hlimit : S.limit = none) (hdry : options.dryRun = false)
    (hhosts : (eligible.map (·.host)).Nodup) {stop : Stop}
    (hturns : Turnwise (applyTurns S options true) eligible w (.error stop) w') :
    ∃ es, w.Gains w' es ∧ RollsInTurn S options eligible w w' es (.error stop) := by
  have hextends : ∀ o w r w', applyTurns S options true o w r w' → w.Extends (InTurn o.node) w' :=
    extends_of_ends_applyTurn hlimit
  obtain ⟨es, hes, -⟩ := (hturns.extends_of_turns hextends).gains
  refine ⟨es, hes, ?_, ?_, spaced_of_turnwise hlimit hdry hturns hes, ?_⟩
  · rintro before t c after rfl earlier o later hsplit hnode
    exact turns_before_call hlimit hdry hhosts hturns hes hsplit hnode
  · rintro _ ⟨⟩
    cases hturns with
    | @stopped done o later outcomes v _ _ hitems hdone hstop =>
      subst hitems
      rcases turn_cases hdry hstop with ⟨outcome, hr, -⟩ | ⟨stop', hr, hfails⟩
      · cases hr
      · cases hr
        exact .inl ⟨done, o, later, outcomes, v, rfl, turns_of_series hdry hdone, hfails,
          Turnwise.not_called_of_failed hextends hhosts hdone hstop hes⟩
  · rintro report ⟨⟩

/-- With stabilization on the apply phase of a run rolls over its nodes. -/
theorem rollsInTurn_of_ends (hlimit : S.limit = none) (hon : options.Stabilizes eligible)
    (hhosts : (eligible.map (·.host)).Nodup) {r : Except Stop ApplyReport}
    (h : (Work.applyEligible options eligible).Ends S w r w') :
    ∃ es, w.Gains w' es ∧ RollsInTurn S options eligible w w' es r := by
  obtain ⟨hskip, hdry, hmaintenance⟩ := hon
  have hstabilize : (!options.skipPostApplyChecks && !allInMaintenance eligible) = true := by
    simp [hskip, hmaintenance]
  have hcourse := applyCourse_of_ends h
  rw [hstabilize] at hcourse
  cases hcourse with
  | unapplied hturns => exact rollsInTurn_of_stopped hlimit hdry hhosts hturns
  | applied hturns =>
    refine rollsInTurn_of_series hlimit hdry hhosts hturns (.refl _) ?_ ?_
    · rintro report ⟨⟩
      rfl
    · rintro stop ⟨⟩
  | @started outcomes v r₁ _ hturns hstarts hetcd =>
    refine rollsInTurn_of_series hlimit hdry hhosts hturns (hetcd.extends (.ensureEtcd hlimit))
      (fun report hr => ?_) fun stop hr => ?_
    · cases r₁ with
      | error => cases hr
      | ok etcd =>
        cases hr
        rfl
    · cases r₁ with
      | ok => cases hr
      | error stop' =>
        cases hr
        exact ⟨hstarts.1, hetcd⟩

end Rollout
