import Rollout.Proofs.Apply.Run
import Rollout.Proofs.Upgrade.Course
import Rollout.Proofs.Upgrade.Image
import Rollout.Wire.Calls

/-!
# When a node is upgraded

What a node should run is read from an image reference, what it runs from its resources, and both are
brought into one form: the version without a `v`, the schematic by itself. `upgradeNode` decides by these
two alone. A node that runs what its image names is not even connected to; any other is asked to upgrade
itself exactly once, unless it is a dry run, the operator says no or cannot be asked, or the node cannot
be reached.
-/

namespace Rollout

variable {σ : Type} {S : Setting σ} {options : UpgradeOptions} {o : Observation} {v v₁ v₂ : World σ}
  {image : String} {parts : InstallerImage} {client : Client}

/-! ## What a gathered node runs -/

namespace Wire

/-- What the first version resource of a reply reads, if there is one and it can be read. -/
def firstVersion? (t : Transfer) : Option String :=
  match listedResources t with
  | .ok (r :: _) => (r.decode "version" versionDecoder).toOption
  | _ => none

/-- The version of a node is what its first version resource reads, without the letters `v` in front. -/
theorem receive_osVersion {t : Transfer} {W version : String} (h : firstVersion? t = some W)
    (hreceive : receive .osVersion t = .ok version) : version = bareVersion W := by
  unfold firstVersion? at h
  split at h
  · next r rest hlisted =>
    have hreply : receive .osVersion t =
        (r.decode "version" versionDecoder).map bareVersion := by
      change receiveVersion t = _
      unfold receiveVersion
      rw [hlisted]
      change (r.decode "version" versionDecoder >>= fun W => pure (bareVersion W)) = _
      cases r.decode "version" versionDecoder <;> rfl
    cases hdecode : r.decode "version" versionDecoder with
    | error e =>
      rw [hdecode] at h
      cases h
    | ok W' =>
      rw [hdecode] at h hreply
      cases h
      rw [hreceive] at hreply
      exact Except.ok.inj hreply
  · cases h

end Wire

/-- In this journal the node has named its extensions, its first version resource reads `W`, and the
configuration rendered for it is to install `image`. -/
structure Presents (log : List Entry) (node : Node) (extensions : List Extension) (W image : String) :
    Prop where
  extensions : Replied log node .extensions extensions
  version : ∃ t version, Wire.firstVersion? t = some W ∧ Wire.receive .osVersion t = .ok version ∧
    Replied log node .osVersion version
  image : ∃ t config, .answered t (.render node) (.ok config) ∈ log ∧
    MachineConfig.installerImage config = .ok image

theorem Presents.desired {log : List Entry} {records : List Observation} {extensions : List Extension}
    {W : String} {i : TaggedImage} (h : Presents log o.node extensions W i.text)
    (hattests : Attests log records) (hhosts : (records.map (·.host)).Nodup) (ho : o ∈ records) :
    o.desired = .ok (i.text, ⟨i.schematic, i.version⟩) ∧
      (o.runs ⟨i.schematic, i.version⟩ = true ↔
        Observation.schematicOf extensions = i.schematic ∧ Wire.bareVersion W = i.version) := by
  obtain ⟨t, version, hfirst, hreceive, hversion⟩ := h.version
  obtain ⟨t', config, hrendered, himage⟩ := h.image
  have hconfig := (hattests.config_eq_some_iff hhosts ho).2 ⟨t', hrendered⟩
  constructor
  · unfold Observation.desired
    rw [hconfig]
    dsimp only
    rw [himage]
    dsimp only
    rw [i.parse_text]
    rfl
  · unfold Observation.runs
    rw [hattests.schematic_eq hhosts ho h.extensions, hattests.osVersion_eq hhosts ho hversion,
      Wire.receive_osVersion hfirst hreceive, Bool.and_eq_true, beq_iff_eq, beq_iff_eq]
    exact and_congr eq_comm eq_comm

/-! ## The turn of the node -/

def Entry.sendsUpgrade : Entry → Bool
  | sent _ (.request _ (.upgrade _)) => true
  | _ => false

theorem countP_sendsUpgrade_eq_zero {es : List Entry} (h : ∀ e ∈ es, ¬ e.call.Upgrades) :
    es.countP Entry.sendsUpgrade = 0 := by
  refine List.countP_eq_zero.2 fun e he hsends => h e he ?_
  unfold Entry.sendsUpgrade at hsends
  split at hsends
  · exact ⟨_, _, rfl⟩
  · cases hsends

/-- The operator lets the upgrade go ahead: by a yes, or because nobody is to be asked. -/
inductive GoAhead (env : Environment σ) (options : UpgradeOptions) (question : String) (v : World σ) :
    World σ → Prop
  | waived (h : options.confirm = false) : GoAhead env options question v v
  | agreed {u} (h : options.confirm = true)
      (hyes : v.answer? env (.ask question) = some (.ok true, u)) : GoAhead env options question v u

theorem GoAhead.gains {env : Environment σ} {question : String}
    (h : GoAhead env options question v v₁) :
    ∃ es, v.Gains v₁ es ∧ es.countP Entry.sendsUpgrade = 0 := by
  cases h with
  | waived => exact ⟨[], .refl v, rfl⟩
  | agreed _ hyes => exact ⟨_, World.gains_answer hyes, rfl⟩

theorem World.gains_connection {env : Environment σ} {node : Node} {a : Except Error Client}
    (h : v.connection? env node = some (a, v₁)) :
    ∃ es, v.Gains v₁ es ∧ es.countP Entry.sendsUpgrade = 0 := by
  rcases World.connection_cases h with ⟨e, -, hanswer⟩ | ⟨channel, u, -, hanswer, rfl⟩
  · exact ⟨_, World.gains_answer hanswer, rfl⟩
  · exact ⟨_, (World.gains_answer hanswer).of_journal_eq rfl, rfl⟩

namespace Work

theorem ends_ask {question : String} {yes : Bool} (hS : S.limit = none)
    (h : v.answer? S.environment (.ask question) = some (.ok yes, v₁)) :
    (ask question).Ends S v (.ok yes) v₁ :=
  (ends_call h (S.allows_of_limit_none hS _)).bind (ends_ofExcept_iff.2 ⟨rfl, rfl⟩)

theorem upgradeNode_eq_of_runs (hdesired : o.desired = .ok (image, parts))
    (hruns : o.runs parts = true) : (upgradeNode o options : Work σ _) = pure .upToDate := by
  unfold upgradeNode
  rw [desiredImage_eq, hdesired]
  change (if o.runs parts = true then _ else _) = _
  rw [if_pos hruns]

theorem upgradeNode_eq_of_dryRun (hdesired : o.desired = .ok (image, parts))
    (hruns : o.runs parts = false) (hdry : options.dryRun = true) :
    (upgradeNode o options : Work σ _) = pure .pending := by
  unfold upgradeNode
  rw [desiredImage_eq, hdesired]
  change (if o.runs parts = true then _ else if options.dryRun = true then _ else _) = _
  rw [if_neg (by simp [hruns]), if_pos hdry]

theorem upgradeNode_eq_of_due (hdesired : o.desired = .ok (image, parts))
    (hruns : o.runs parts = false) (hdry : options.dryRun = false) :
    (upgradeNode o options : Work σ _) =
      (if options.confirm then do
        if !(← ask (upgradeQuestion o.host image)) then return .skipped
        requestUpgrade o options image
      else requestUpgrade o options image) >>= settled (· == .upgraded) o := by
  rw [upgradeNode_eq]
  congr 1
  unfold upgradeCall
  rw [hdesired]
  change (if o.runs parts = true then _ else if options.dryRun = true then _ else _) = _
  rw [if_neg (by simp [hruns]), if_neg (by simp [hdry])]

theorem ends_upgradeNode_iff_of_goAhead (hS : S.limit = none)
    (hdesired : o.desired = .ok (image, parts)) (hruns : o.runs parts = false)
    (hdry : options.dryRun = false)
    (hgo : GoAhead S.environment options (upgradeQuestion o.host image) v v₁)
    {r : Except Stop UpgradeOutcome} {v' : World σ} :
    (upgradeNode o options).Ends S v r v' ↔
      (requestUpgrade o options image >>= settled (· == .upgraded) o).Ends S v₁ r v' := by
  rw [upgradeNode_eq_of_due hdesired hruns hdry]
  cases hgo with
  | waived h =>
    rw [if_neg (by simp [h])]
  | agreed h hyes =>
    rw [if_pos h, bind_assoc]
    exact (ends_ask hS hyes).bind_iff

theorem eq_of_ends_settled {watched : UpgradeOutcome → Bool} {outcome a : UpgradeOutcome}
    {v' : World σ} (h : (settled watched o outcome).Ends S v (.ok a) v') : a = outcome := by
  unfold settled at h
  by_cases hwatched : watched outcome = true
  · rw [if_pos hwatched] at h
    rcases ends_bind_iff.1 h with ⟨⟨⟩, u, -, h⟩ | ⟨stop, -, hr⟩
    · exact Except.ok.inj (ends_pure_iff.1 h).1
    · cases hr
  · rw [if_neg hwatched] at h
    exact Except.ok.inj (ends_pure_iff.1 h).1

theorem runs_of_ends_upToDate (hdesired : o.desired = .ok (image, parts)) {v' : World σ}
    (h : (upgradeNode o options).Ends S v (.ok .upToDate) v') : o.runs parts = true := by
  rw [upgradeNode_eq] at h
  rcases ends_bind_iff.1 h with ⟨outcome, u, hcall, hsettled⟩ | ⟨e, -, hr⟩
  · obtain rfl := eq_of_ends_settled hsettled
    obtain ⟨es, -, htrace⟩ := Leaves.upgradeCall _ _ _ hcall
    generalize hr : (.ok .upToDate : Except Stop UpgradeOutcome) = r at htrace
    cases htrace with
    | upToDate himage hruns =>
      rw [hdesired] at himage
      cases himage
      exact hruns
    | @requested _ _ _ _ _ _ _ r _ _ _ _ _ hes => cases r <;> cases hr
    | _ => cases hr
  · cases hr

theorem Leaves.sendUpgrade {host : String} {q : UpgradeRequest} :
    (sendUpgrade host client q : Work σ Unit).Leaves S fun es _ =>
      es.countP Entry.sendsUpgrade = 1 ∧ ∃ t, .sent t (.request client (.upgrade q)) ∈ es := by
  intro w r w' h
  have hleaves : (Work.sendUpgrade host client q : Work σ Unit).Leaves S
      (Demanded (.request client (.upgrade q)) (.upgrade host)) :=
    .demand (fun _ => rfl) fun _ => rfl
  obtain ⟨es, hes, hdemanded⟩ := hleaves w r w' h
  obtain ⟨t, rest, rfl, hrest⟩ := hdemanded.head
  refine ⟨_, hes, ?_, t, by simp⟩
  have hnone : rest.countP Entry.sendsUpgrade = 0 := by
    refine List.countP_eq_zero.2 fun e he => ?_
    obtain ⟨t', a, rfl⟩ := hrest e he
    exact nofun
  rw [List.countP_cons, hnone]
  rfl

theorem Runs.sendUpgrade {host : String} {q : UpgradeRequest} :
    (sendUpgrade host client q : Work σ Unit).Runs S fun _ => True := by
  refine .bind (.request trivial) fun answer => ?_
  cases answer with
  | error e => exact .fail _
  | ok _ => exact .pure _

theorem Runs.settled {watched : UpgradeOutcome → Bool} {outcome : UpgradeOutcome}
    (hS : S.limit = none) : (settled watched o outcome).Runs S fun c => ¬ c.Upgrades := by
  unfold Work.settled
  split
  · exact .bind ((Runs.waitStable hS).mono fun c hc => hc.not_upgrades) fun _ => .pure _
  · exact .pure _

/-- Once the operator has let it go ahead and the node is connected to, it is asked to upgrade itself
exactly once, to the image its configuration names. -/
theorem exists_request_of_goAhead (hS : S.limit = none) (hdesired : o.desired = .ok (image, parts))
    (hruns : o.runs parts = false) (hdry : options.dryRun = false)
    (hgo : GoAhead S.environment options (upgradeQuestion o.host image) v v₁)
    (hconnect : v₁.connection? S.environment o.node = some (.ok client, v₂)) :
    ∃ r v' es, (upgradeNode o options).Ends S v r v' ∧ v.Gains v' es ∧
      es.countP Entry.sendsUpgrade = 1 ∧
      ∃ t, .sent t (.request client (.upgrade (options.request image))) ∈ es := by
  obtain ⟨asked, hasked, hnone⟩ := hgo.gains
  obtain ⟨opening, hopening, hquiet⟩ := World.gains_connection hconnect
  have hconnected : (connected o.node).Ends S v₁ (.ok client) v₂ :=
    (ends_connect hconnect (S.allows_of_limit_none hS _)).bind (ends_ofExcept_iff.2 ⟨rfl, rfl⟩)
  have hnode {r : Except Stop UpgradeOutcome} {v' : World σ}
      (h : (sendUpgrade o.host client (options.request image) >>= fun _ =>
        settled (· == .upgraded) o UpgradeOutcome.upgraded).Ends S v₂ r v') :
      (upgradeNode o options).Ends S v r v' := by
    rw [ends_upgradeNode_iff_of_goAhead hS hdesired hruns hdry hgo]
    unfold requestUpgrade
    simp only [bind_assoc, pure_bind]
    exact hconnected.bind h
  obtain ⟨r, u, hsend, -⟩ : ∃ r u, (sendUpgrade o.host client (options.request image)).Ends S v₂ r u ∧ _ :=
    Runs.sendUpgrade v₂
  obtain ⟨sent, hsent, hone, t, ht⟩ := Leaves.sendUpgrade _ _ _ hsend
  cases r with
  | error stop =>
    refine ⟨_, u, asked ++ opening ++ sent, hnode (hsend.bind_error _), (hasked.trans hopening).trans hsent,
      ?_, t, by simp [ht]⟩
    rw [List.countP_append, List.countP_append, hnone, hquiet, hone]
  | ok _ =>
    obtain ⟨r, v', hsettled, hextends⟩ :=
      (Runs.settled hS : (settled (· == .upgraded) o UpgradeOutcome.upgraded).Runs S _) u
    obtain ⟨rest, hrest, hall⟩ := hextends.gains
    refine ⟨r, v', asked ++ opening ++ sent ++ rest, hnode (hsend.bind hsettled),
      ((hasked.trans hopening).trans hsent).trans hrest, ?_, t, by simp [ht]⟩
    rw [List.countP_append, List.countP_append, List.countP_append, hnone, hquiet, hone,
      countP_sendsUpgrade_eq_zero fun e he => (hall e he).1]

end Work

/-- How the turn of the node of `o` goes that is begun in `v`, when its configuration names `image`; `same`
says that the node runs what the image names. -/
structure DecidesUpgrade (S : Setting σ) (options : UpgradeOptions) (o : Observation) (image : String)
    (same : Prop) (v : World σ) : Prop where
  /-- Nothing is done for a node that runs what it should, and nothing else counts as up to date. -/
  upToDate : ∀ v', (Work.upgradeNode o options).Ends S v (.ok .upToDate) v' ↔ same ∧ v' = v
  pending : ¬ same → options.dryRun = true → (Work.upgradeNode o options).Ends S v (.ok .pending) v
  skipped : ¬ same → options.dryRun = false → options.confirm = true → ∀ v₁,
    v.answer? S.environment (.ask (Work.upgradeQuestion o.host image)) = some (.ok false, v₁) →
    (Work.upgradeNode o options).Ends S v (.ok .skipped) v₁ ∧
      ∃ es, v.Gains v₁ es ∧ es.countP Entry.sendsUpgrade = 0
  requested : ¬ same → options.dryRun = false → ∀ v₁ client v₂,
    GoAhead S.environment options (Work.upgradeQuestion o.host image) v v₁ →
    v₁.connection? S.environment o.node = some (.ok client, v₂) →
    ∃ r v' es, (Work.upgradeNode o options).Ends S v r v' ∧ v.Gains v' es ∧
      es.countP Entry.sendsUpgrade = 1 ∧
      ∃ t, .sent t (.request client (.upgrade (options.request image))) ∈ es

theorem decidesUpgrade_of_desired (hS : S.limit = none) (hdesired : o.desired = .ok (image, parts)) :
    DecidesUpgrade S options o image (o.runs parts = true) v where
  upToDate v' := by
    cases hruns : o.runs parts with
    | true =>
      rw [Work.upgradeNode_eq_of_runs hdesired hruns, Work.ends_pure_iff]
      simp
    | false =>
      refine ⟨fun h => ?_, fun h => absurd h.1 (by simp)⟩
      cases hruns.symm.trans (Work.runs_of_ends_upToDate hdesired h)
  pending hsame hdry := by
    rw [Work.upgradeNode_eq_of_dryRun hdesired (by simpa using hsame) hdry]
    exact Work.ends_pure_iff.2 ⟨rfl, rfl⟩
  skipped hsame hdry hconfirm v₁ hno := by
    constructor
    · rw [Work.upgradeNode_eq_of_due hdesired (by simpa using hsame) hdry, if_pos hconfirm, bind_assoc]
      exact (Work.ends_ask hS hno).bind (Work.ends_pure_iff.2 ⟨rfl, rfl⟩)
    · exact ⟨_, World.gains_answer hno, rfl⟩
  requested hsame hdry v₁ client v₂ hgo hconnect :=
    Work.exists_request_of_goAhead hS hdesired (by simpa using hsame) hdry hgo hconnect

/-- An upgrade depends on the schematic and the version of a node and on nothing else, and a `v` in front
of a version, in the image or on the node, does not count. A node whose extensions and first version
resource say what its image names is left alone. Any other has to be upgraded: in a dry run and after a
no nothing is asked of it, else it is asked to upgrade itself exactly once. -/
theorem upgrade_decided_by_schematic_and_version (env : Environment σ) (cluster : Cluster)
    (nodes : List Node) (hhosts : (nodes.map (·.host)).Nodup) (signal : Signal) {w w' : World σ}
    {records : List Observation} {log : List Entry} :
    let S : Setting σ := { environment := env, cluster, nodes, signal }
    Work.gather.Ends S w (.ok records) w' → w.Gains w' log → ∀ o ∈ records,
    ∀ (i : TaggedImage) (extensions : List Extension) (W : String),
      Presents log o.node extensions W i.text → ∀ (options : UpgradeOptions) (v : World σ),
      DecidesUpgrade S options o i.text
        (Observation.schematicOf extensions = i.schematic ∧ Wire.bareVersion W = i.version) v := by
  intro S hgather hlog o ho i extensions W hpresents options v
  obtain ⟨log', hlog', hattests⟩ := Work.attests_of_ends_gather hgather
  obtain rfl := hlog.unique hlog'
  have hrecords := Work.nodup_hosts_of_ends_gather (S := S) hhosts hgather
  obtain ⟨hdesired, hruns⟩ := hpresents.desired hattests hrecords ho
  have hdecides : DecidesUpgrade S options o i.text _ v := decidesUpgrade_of_desired rfl hdesired
  rwa [hruns] at hdecides

/-- The environment `obliging`, but its nodes are at version 1.9.0 and are to be at 1.10.0. -/
def outdated : Environment Unit where
  serve state now
    | .render _ =>
      { begun := ()
        delay := some 0
        finish := fun _ => ((), .ok (Bytes.ofText "machine:\n  install:\n    image: r.io/a/abc:v1.10.0\n")) }
    | .request _ .extensions =>
      { begun := ()
        delay := some 0
        finish := fun _ => ((), .ok [⟨"driver", "2"⟩, ⟨"schematic", "abc"⟩]) }
    | .request _ .osVersion =>
      { begun := (), delay := some 0, finish := fun _ => ((), .ok "1.9.0") }
    | c => obliging.serve state now c

def newerImage : TaggedImage where
  registry := "r.io/a"
  schematic := "abc"
  version := "1.10.0"
  marked := true
  registry_oneLine := by decide
  schematic_ne := by decide
  schematic_alphanumeric := List.all_eq_true.1 (by decide)
  version_ne := by decide
  version_bare := by decide
  version_noSlash := by decide
  version_oneLine := by decide

def Entry.saysOutdated : Entry → Bool
  | answered _ (.request _ .extensions) (.ok es) => es == [⟨"driver", "2"⟩, ⟨"schematic", "abc"⟩]
  | answered _ (.request _ .osVersion) (.ok v) => v == "1.9.0"
  | _ => true

/-- In that environment every node is asked to upgrade itself, though its schematic is right. -/
theorem outdated_node_is_upgraded :
    let S : Setting Unit := { twoNodes with environment := outdated }
    (twoNodes.nodes.map (·.host)).Nodup ∧
    ∃ records w' log o, Work.gather.Ends S { state := () } (.ok records) w' ∧
      World.Gains { state := () } w' log ∧ o ∈ records ∧
      Presents log o.node [⟨"driver", "2"⟩, ⟨"schematic", "abc"⟩] "v1.9.0" newerImage.text ∧
      ∃ r v es, (Work.upgradeNode o { confirm := false }).Ends S w' r v ∧ w'.Gains v es ∧
        es.countP Entry.sendsUpgrade = 1 := by
  intro S
  have hhosts : (twoNodes.nodes.map (·.host)).Nodup := by decide
  refine ⟨hhosts, ?_⟩
  have hplaces : (Work.gathered S { state := () }).places.isEmpty = true := by decide +kernel
  have hgather : Work.gather.Ends S { state := () }
      (.ok (Work.gathered S { state := () }).records.toList)
      (Work.gathered S { state := () }).world := by
    have h := Work.result?_gather (S := S) (w := { state := () })
    rwa [if_pos hplaces] at h
  obtain ⟨log, hlog, hattests⟩ := Work.attests_of_ends_gather hgather
  have hsaid : ∀ e ∈ log, e.saysOutdated = true := by
    have hlog : log = (Work.gathered S { state := () }).world.journal.toList := hlog.symm
    rw [hlog]
    exact List.all_eq_true.1 (by decide +kernel)
  have hread : ∀ o ∈ (Work.gathered S { state := () }).records.toList,
      (o.failure.isNone && o.config == some (Bytes.ofText
        "machine:\n  install:\n    image: r.io/a/abc:v1.10.0\n")) = true :=
    List.all_eq_true.1 (by decide +kernel)
  obtain ⟨o, ho⟩ : ∃ o, o ∈ (Work.gathered S { state := () }).records.toList :=
    List.exists_mem_of_length_pos (by decide +kernel)
  have hrecord := hread o ho
  rw [Bool.and_eq_true, Option.isNone_iff_eq_none, beq_iff_eq] at hrecord
  obtain ⟨-, ⟨extensions, hextensions, -⟩, hversion⟩ := hattests.read ho hrecord.1
  have hnamed : extensions = [⟨"driver", "2"⟩, ⟨"schematic", "abc"⟩] := by
    obtain ⟨t, client, -, hmem⟩ := hextensions
    exact eq_of_beq (hsaid _ hmem)
  have hread : o.osVersion = "1.9.0" := by
    obtain ⟨t, client, -, hmem⟩ := hversion
    exact eq_of_beq (hsaid _ hmem)
  have hreceive : Wire.receive .osVersion (Wire.send .osVersion "v1.9.0") = .ok "1.9.0" := by
    decide +kernel
  have hrecords := Work.nodup_hosts_of_ends_gather (S := S) hhosts hgather
  obtain ⟨t, hrendered⟩ := (hattests.config_eq_some_iff hrecords ho).1 hrecord.2
  have hpresents : Presents log o.node [⟨"driver", "2"⟩, ⟨"schematic", "abc"⟩] "v1.9.0"
      newerImage.text :=
    { extensions := hnamed ▸ hextensions
      version := ⟨Wire.send .osVersion "v1.9.0", _, by decide +kernel, hreceive, hread ▸ hversion⟩
      image := ⟨t, _, hrendered, by decide +kernel⟩ }
  have hdecides := upgrade_decided_by_schematic_and_version outdated twoNodes.cluster twoNodes.nodes
    hhosts .never hgather hlog o ho newerImage _ _ hpresents { confirm := false }
    (Work.gathered S { state := () }).world
  obtain ⟨r, v, es, hends, hes, hone, -⟩ :=
    hdecides.requested (by decide +kernel) rfl _ _ _ (.waived rfl) rfl
  exact ⟨_, _, log, o, hgather, hlog, ho, hpresents, r, v, es, hends, hes, hone⟩

end Rollout
