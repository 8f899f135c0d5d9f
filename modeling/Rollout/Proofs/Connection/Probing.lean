import Mathlib
import Rollout.CommandLine.Desk
import Rollout.Proofs.Cancellation.Changes
import Rollout.Proofs.Connection.Lines

/-!
# What connections are protected by

A change goes over the connection made last, and that connection is what the node itself showed when it was
probed for it: protected on both sides if the node asked for a certificate, and not protected if it did not.
Nothing else is looked at. The stage in which the node was gathered decides whether it takes part, but not how
it is connected to: only a bootstrap, which takes nodes in maintenance alone, is sure to change no others over
a connection that is not protected.
-/

namespace Rollout

variable {σ α β : Type}

/-! ## The connection of a request -/

/-- The connection of the client is the last one made before, in the state `s` of the world, to which the
entries before it lead from `s₀`. -/
inductive MadeIn (env : Environment σ) (s₀ : σ) (before : List Entry) (client : Client) (s : σ) : Prop
  | intro {front t₀ t₁ mid s₁} (hbefore : before = front ++ (opened client t₀ t₁ ++ mid))
      (hmid : ∀ e ∈ mid, e.call.Over client) (hfront : env.Evolves s₀ front s)
      (hresponse : env.respond s t₀ (.connect client.node) = (s₁, .ok client.channel)) :
      MadeIn env s₀ before client s

/-- In a journal that is on line and tells what becomes of the world, every request has its connection. -/
theorem OnLine.exists_madeIn {env : Environment σ} {es before after : List Entry} {s s' : σ} {t : Instant}
    {client : Client} {q : Request} (h : OnLine es) (hevolves : env.Evolves s es s')
    (hes : es = before ++ .sent t (.request client q) :: after) :
    ∃ d, MadeIn env s before client d := by
  obtain ⟨front, t₀, t₁, mid, rfl, hmid⟩ := h before t client q after hes
  have hsplit : es = (front ++ [.sent t₀ (.connect client.node)]) ++
      .answered t₁ (.connect client.node) (.ok client.channel) ::
        (mid ++ .sent t (.request client q) :: after) := by
    simp [hes, Rollout.opened, exchange]
  rw [hsplit] at hevolves
  obtain ⟨front', t₀', d, d', hfront, hevolves', hresponse, -⟩ := hevolves.split_answered
  obtain ⟨rfl, hsent⟩ := List.append_inj' hfront rfl
  cases hsent
  exact ⟨d, .intro rfl hmid hevolves' hresponse⟩

/-! ## What a connection is protected by -/

/-- A connection is protected if the node asked for a certificate, and only then. -/
theorem Network.probe_of_connect {net : Network σ} {secrets : σ → σ × Except Error Bundle} {s s' : σ}
    {node : Node} {channel : Channel} (h : net.connect secrets s node = (s', .ok channel)) :
    (net.probe s (node.authority managementPort) node.host).2 = .ok (channel == .mutual) := by
  unfold connect at h
  dsimp only at h
  split at h
  · cases h
  generalize net.probe s (node.authority managementPort) node.host = probed at h ⊢
  obtain ⟨s₁, reason | _ | _⟩ := probed
  · cases h
  · dsimp only at h
    split at h <;> cases h
    rfl
  · dsimp only at h
    split at h
    · cases h
    split at h
    · cases h
    split at h <;> cases h
    rfl

theorem Desk.respond_connect {site : Site σ} {store : Store σ} {dir : String} {d : Desk σ} {t : Instant}
    {node : Node} :
    (Desk.environment site store dir).respond d t (.connect node) =
      (Desk.network site.network).connect (Desk.secrets site store) d node := rfl

/-- A connection of a command is as the node showed when the command probed it. -/
theorem MadeIn.probe {site : Site σ} {store : Store σ} {dir : String} {d₀ d : Desk σ} {before : List Entry}
    {client : Client} (h : MadeIn (Desk.environment site store dir) d₀ before client d) :
    (site.network.probe d.outside (client.node.authority managementPort) client.node.host).2 =
      .ok (client.channel == .mutual) := by
  obtain ⟨-, -, -, hresponse⟩ := h
  rw [Desk.respond_connect] at hresponse
  have hprobe := Network.probe_of_connect hresponse
  exact hprobe

/-! ## Changes -/

/-- What is behind a change that a run begun in `w` sends over a client: its node was gathered in a stage
that the operation takes, and the connection is the last one made since, as the node showed when it was probed
for it in the state `d`. -/
inductive Probed (site : Site σ) (S : Setting (Desk σ)) (takes : Stage → Prop) (w : World (Desk σ))
    (before : List Entry) (client : Client) : Prop
  | intro {records w₁ gathered since o d} (hgather : Work.gather.Ends S w (.ok records) w₁)
      (hgathered : w.Gains w₁ gathered) (hbefore : before = gathered ++ since) (ho : o ∈ records)
      (hnode : o.node = client.node) (hstage : takes o.stage)
      (hmade : MadeIn S.environment w₁.state since client d)
      (hprobe : (site.network.probe d.outside (client.node.authority managementPort)
        client.node.host).2 = .ok (client.channel == .mutual)) :
      Probed site S takes w before client

/-- The work ends, and behind every change it has sent there is a probe. -/
def Work.SendsProbed (site : Site σ) (S : Setting (Desk σ)) (takes : Stage → Prop) (w : World (Desk σ))
    (x : Work (Desk σ) α) : Prop :=
  ∃ r w', x.Ends S w r w' ∧ ∀ before t client q after,
    w.Gains w' (before ++ .sent t (.request client q) :: after) →
    (Call.request client q).changes = true → Probed site S takes w before client

namespace Work

variable {site : Site σ} {store : Store σ} {dir : String} {S : Setting (Desk σ)} {takes : Stage → Prop}
  {w w' : World (Desk σ)} {check : List Observation → Except Error (List Observation)}
  {go : List Observation → Work (Desk σ) β} {act : Observation → Work (Desk σ) α}
  {Q : List Observation → β → List Errand → Prop}

/-- A change is sent past the gathering, by what the run does with the nodes it has gathered. -/
theorem exists_gathered_of_change {P : List Observation → Call → Prop}
    (hruns : ∀ records eligible, check records = .ok eligible → (go eligible).Runs S (P records))
    {r : Except Stop β} (h : (onGathered check go).Ends S w r w') {before after : List Entry} {t : Instant}
    {c : Call} (hjournal : w.Gains w' (before ++ .sent t c :: after)) (hchanges : c.changes = true) :
    ∃ records eligible w₁ gathered since, gather.Ends S w (.ok records) w₁ ∧
      (go eligible).Ends S w₁ r w' ∧ w.Gains w₁ gathered ∧ before = gathered ++ since ∧
      w₁.Gains w' (since ++ .sent t c :: after) ∧ P records c := by
  have hobserves {es : List Entry} (hall : ∀ e ∈ es, Observes e.call) : .sent t c ∉ es := by
    intro hmem
    cases (Observes.changes_eq (hall _ hmem)).symm.trans hchanges
  -- A run that ends with its gathering has only observed.
  have hquiet {u : World (Desk σ)} (hextends : w.Extends Observes u) (hu : u.journal = w'.journal) : False := by
    have hall := hextends.forall_mem (hjournal.of_journal_eq hu)
    exact hobserves (fun e he => (hall e he).1) (by simp)
  rcases ends_bind_iff.1 h with ⟨records, w₁, hgather, hrest⟩ | ⟨stop, hgather, -⟩
  swap
  · exact (hquiet (hgather.extends .gather) rfl).elim
  rcases ends_ofExcept_bind_iff.1 hrest with ⟨eligible, hcheck, hgo⟩ | ⟨e, -, -, rfl⟩
  swap
  · exact (hquiet (hgather.extends .gather) rfl).elim
  obtain ⟨gathered, hgathered, hall⟩ := (hgather.extends .gather).gains
  obtain ⟨es, hgains, hcalled⟩ := (hgo.extends (hruns records eligible hcheck)).gains
  have hes : gathered ++ es = before ++ .sent t c :: after := (hgathered.trans hgains).unique hjournal
  rcases append_eq_append_cons_cases hes with ⟨mid, rfl, -⟩ | ⟨since, rfl, rfl⟩
  · exact (hobserves (fun e he => (hall e he).1) (by simp)).elim
  · have hcall : P records c := (hcalled (.sent t c) (by simp)).1
    exact ⟨records, eligible, w₁, gathered, since, hgather, hgo, hgathered, rfl, hgains, hcall⟩

/-- A run that goes on with gathered nodes sends its changes over probed connections, if its strides are on
line and it calls only nodes in the stages it takes. -/
theorem probed_of_onGathered (hS : S.environment = Desk.environment site store dir)
    (hline : ∀ o, (act o).HoldsLine S) (haccounted : ∀ o, (act o).Accounted)
    (hheeds : ∀ eligible, (go eligible).Heeds act S (Q eligible))
    (hcalls : ∀ records eligible, check records = .ok eligible → (go eligible).Runs S fun c =>
      ∀ node, c.node? = some node → ∃ o ∈ records, o.node = node ∧ takes o.stage)
    {r : Except Stop β} (h : (onGathered check go).Ends S w r w') {before after : List Entry} {t : Instant}
    {client : Client} {q : Request} (hjournal : w.Gains w' (before ++ .sent t (.request client q) :: after))
    (hchanges : (Call.request client q).changes = true) : Probed site S takes w before client := by
  obtain ⟨records, eligible, w₁, gathered, since, hgather, hgo, hgathered, hbefore, hsince, hcalled⟩ :=
    exists_gathered_of_change hcalls h hjournal hchanges
  obtain ⟨o, ho, hnode, hstage⟩ := hcalled client.node rfl
  obtain ⟨ss, hstrides, -⟩ := hheeds eligible w₁ r w' hgo
  have hevolves := (hstrides.evolves haccounted).of_gains hstrides.gains
  obtain ⟨d, hmade⟩ := (hstrides.onLine hline).exists_madeIn hevolves (hstrides.gains.unique hsince)
  have hprobe := (hS ▸ hmade : MadeIn (Desk.environment site store dir) _ _ _ _).probe
  exact .intro hgather hgathered hbefore ho hnode hstage hmade hprobe

theorem calls_of_policy {p : Policy} (hstages : ∀ s ∈ p.stages, takes s)
    (hgo : ∀ eligible, (go eligible).Runs S fun c => ∃ o ∈ eligible, InTurn o.node c)
    (records eligible : List Observation) (hcheck : p.check records = .ok eligible) :
    (go eligible).Runs S fun c =>
      ∀ node, c.node? = some node → ∃ o ∈ records, o.node = node ∧ takes o.stage := by
  refine (hgo eligible).mono ?_
  rintro c ⟨o, ho, hc⟩ node hnode
  rw [Policy.eq_filter_of_check hcheck] at ho
  obtain ⟨ho, heligible⟩ := List.mem_filter.1 ho
  rcases hc with hc | hc
  · have hsame : o.node = node := Option.some.inj (hc.symm.trans hnode)
    exact ⟨o, ho, hsame, hstages _ (of_decide_eq_true heligible).stage⟩
  · cases hc.symm.trans hnode

theorem calls_of_resetNodes {options : ResetOptions} (records eligible : List Observation)
    (hcheck : Except.ok records = (.ok eligible : Except Error _)) :
    (resetNodes options {} eligible : Work (Desk σ) _).Runs S fun c =>
      ∀ node, c.node? = some node → ∃ o ∈ records, o.node = node ∧ o.stage ≠ .maintenance := by
  cases hcheck
  rw [resetNodes_eq]
  refine .map (.mapM fun o ho => .bind .checkpoint fun _ => ?_)
  by_cases hstage : o.stage = .maintenance
  · rw [resetNode_eq, if_pos (beq_iff_eq.2 hstage)]
    exact .pure _
  · refine Runs.resetNode.mono fun c hc node hnode => ?_
    rcases hc.inTurn with hc | hc
    · exact ⟨o, ho, Option.some.inj (hc.symm.trans hnode), hstage⟩
    · cases hc.symm.trans hnode

namespace SendsProbed

variable {x : Work (Desk σ) α}

protected theorem of_runs (hruns : x.Runs S fun _ => True)
    (h : ∀ {r w'} {before after : List Entry} {t : Instant} {client : Client} {q : Request},
      x.Ends S w r w' → w.Gains w' (before ++ .sent t (.request client q) :: after) →
      (Call.request client q).changes = true → Probed site S takes w before client) :
    x.SendsProbed site S takes w := by
  obtain ⟨r, w', hends, -⟩ := hruns w
  exact ⟨r, w', hends, fun before t client q after hjournal hchanges => h hends hjournal hchanges⟩

protected theorem apply {options : ApplyOptions} (hS : S.environment = Desk.environment site store dir)
    (hlimit : S.limit = none) :
    (Work.apply options).SendsProbed site S (· ∈ [.maintenance, .booting, .running]) w :=
  .of_runs (.apply hlimit) fun h hjournal hchanges =>
    probed_of_onGathered hS (fun _ => .applyNode) (fun _ => .applyNode)
      (fun _ => .applyEligible hlimit)
      (calls_of_policy (fun _ hs => hs) fun _ => .applyEligible_inTurn hlimit) h hjournal hchanges

protected theorem upgrade {options : UpgradeOptions}
    (hS : S.environment = Desk.environment site store dir) (hlimit : S.limit = none) :
    (Work.upgrade options).SendsProbed site S (· = .running) w :=
  .of_runs (.upgrade hlimit) fun h hjournal hchanges =>
    probed_of_onGathered hS (fun _ => .upgradeCall) (fun _ => .upgradeCall)
      (fun _ => .upgradeNodes hlimit)
      (calls_of_policy (fun _ hs => List.mem_singleton.1 hs) fun _ => .upgradeNodes hlimit)
      h hjournal hchanges

protected theorem reset {options : ResetOptions} (hS : S.environment = Desk.environment site store dir) :
    (Work.reset options).SendsProbed site S (· ≠ .maintenance) w := by
  refine .of_runs .reset fun {r w'} _ _ _ _ _ h hjournal hchanges => ?_
  have hall : (onGathered .ok (resetNodes options {})).Ends S w r w' := h
  exact probed_of_onGathered hS (fun _ => .resetNode) (fun _ => .resetNode) (fun _ => .resetNodes)
    calls_of_resetNodes hall hjournal hchanges

protected theorem bootstrap {confirm : Bool} (hS : S.environment = Desk.environment site store dir)
    (hlimit : S.limit = none) : (Work.bootstrap confirm).SendsProbed site S (· = .maintenance) w := by
  refine .of_runs (.bootstrap hlimit) fun h hjournal hchanges => ?_
  rcases ends_bootstrap_iff.1 h with ⟨-, h⟩ | ⟨e, -, -, rfl⟩
  · exact probed_of_onGathered hS (fun _ => .applyNode) (fun _ => .applyNode)
      (fun _ => .bootstrapEligible hlimit)
      (calls_of_policy (fun _ hs => List.mem_singleton.1 hs) fun _ => .bootstrapEligible hlimit)
      h hjournal hchanges
  · have hnothing := (World.Gains.refl _).unique hjournal
    simp at hnothing

end SendsProbed
end Work

/-- Whatever the site, its nodes and its operator do, every run ends, and every change it sends goes over the
connection made last, which is protected if the node asked for a certificate when it was probed for it and only
then, to a node that was gathered in a stage the operation takes. -/
theorem changes_go_over_probed_connections (site : Site σ) (store : Store σ) (dir : String) (cluster : Cluster)
    (nodes : List Node) (signal : Signal) (w : World (Desk σ)) :
    let S : Setting (Desk σ) := { environment := Desk.environment site store dir, cluster, nodes, signal }
    (∀ options, (Work.apply options).SendsProbed site S (· ∈ [.maintenance, .booting, .running]) w) ∧
      (∀ options, (Work.upgrade options).SendsProbed site S (· = .running) w) ∧
      (∀ options, (Work.reset options).SendsProbed site S (· ≠ .maintenance) w) ∧
      ∀ confirm, (Work.bootstrap confirm).SendsProbed site S (· = .maintenance) w :=
  ⟨fun _ => .apply rfl rfl, fun _ => .upgrade rfl rfl, fun _ => .reset rfl, fun _ => .bootstrap rfl rfl⟩

/-! ## A node that runs and asks for no certificate -/

def Entry.changesUnprotected : Entry → Bool
  | sent _ (.request client q) => (Call.request client q).changes && client.channel == .insecure
  | _ => false

/-- Over connections that are not protected only nodes are changed that were gathered in maintenance. -/
def Work.UnprotectedInMaintenance (S : Setting σ) (w : World σ) (x : Work σ α) : Prop :=
  ∀ r w' es, x.Ends S w r w' → w.Gains w' es → ∀ e ∈ es, e.changesUnprotected = true →
    ∃ records w₁, Work.gather.Ends S w (.ok records) w₁ ∧
      ∃ o ∈ records, e.call.node? = some o.node ∧ o.stage = .maintenance

/-- A site whose nodes run, and ask nobody for a certificate. -/
def openSite : Site Unit where
  system :=
    { isDirectory := fun _ _ => .ok true
      read := fun _ _ => .ok []
      write := fun _ _ _ => ((), .ok ())
      makeDirectory := fun _ _ => ((), .ok ())
      run := fun _ _ _ _ => ((), .error .notFound) }
  network :=
    { probe := fun _ _ _ => ((), .ok false)
      dial := fun _ _ _ _ => ((), .ok ()) }
  serve s t client q := obliging.serve s t (.request client q)
  env _ := none
  now := 0
  generate s := (s, .error (.config "no bundle"))
  issue authority _ _ := authority

def openNode : Setting (Desk Unit) where
  environment := Desk.environment openSite (fileStore openSite.system "") ""
  cluster := twoNodes.cluster
  nodes := [{ host := "cp-1", role := .controlPlane }]

/-- What a run over the node sees, in a form that can be evaluated: that the node's name is a name is known. -/
def openEnvironment : Environment (Desk Unit) where
  serve d t call :=
    match call with
    | .connect node =>
      if node.host = "cp-1" then d.atOnce fun d => (d, .ok .insecure)
      else openNode.environment.serve d t (.connect node)
    | call => openNode.environment.serve d t call

theorem openNode_eq : openNode = { openNode with environment := openEnvironment } := by
  have hname : isServerName "cp-1" = true := by cbv
  have hserve : openNode.environment.serve = openEnvironment.serve := by
    funext d t call
    cases call with
    | connect node =>
      dsimp only [openEnvironment]
      split
      next hhost =>
        simp only [openNode, Desk.environment, Desk.network, openSite, Network.connect, hhost, hname]
        rfl
      next => rfl
    | render node => rfl
    | request client q => rfl
    | display text => rfl
    | ask question => rfl
  have henvironment : openNode.environment = openEnvironment :=
    congrArg (Environment.mk · openEnvironment.favours) hserve
  rw [← henvironment]

/-- The node is reset, although it runs. -/
theorem open_node_is_reset :
    ¬ (Work.reset { confirm := false }).UnprotectedInMaintenance openNode { state := { outside := () } } := by
  rw [openNode_eq]
  generalize hS : { openNode with environment := openEnvironment } = S
  intro hclaim
  have hreset : ((Work.reset { confirm := false }).result? S { state := { outside := () } }).map
      (·.2.journal.toList.any Entry.changesUnprotected) = some true := by
    subst hS
    decide +kernel
  have hrunning : (Work.gathered S { state := { outside := () } }).records.toList.all
      (·.stage == .running) = true := by
    subst hS
    decide +kernel
  obtain ⟨⟨r, w'⟩, hends, hany⟩ := Option.map_eq_some_iff.1 hreset
  obtain ⟨e, he, hunprotected⟩ := List.any_eq_true.1 hany
  have hgains : World.Gains { state := { outside := () } } w' w'.journal.toList := rfl
  obtain ⟨records, w₁, hgather, o, ho, -, hstage⟩ := hclaim r w' _ hends hgains e he hunprotected
  obtain ⟨-, rfl⟩ := Work.records_of_ends_gather hgather
  have hruns : o.stage = .running := beq_iff_eq.1 (List.all_eq_true.1 hrunning o ho)
  cases hruns.symm.trans hstage

end Rollout
