import Rollout.Proofs.Watchdog.WatchedTurn
import Rollout.Run.Upgrade

/-!
# The turn of an upgrade

Up to the accepted request an upgrade is a plain sequence of calls, and an accepted one is waited for. So
the turn of a node has the shape of `watchedTurn`, and `UpgradeTrace` lists what its first part can leave
in the journal.
-/

namespace Rollout

variable {σ : Type} {S : Setting σ} {options : UpgradeOptions} {o : Observation} {w w' : World σ}

/-- The image that the configuration of a record names, as written, and its parts. -/
def Observation.desired (o : Observation) : Except Error (String × InstallerImage) :=
  match o.config with
  | none => .error (.render s!"no configuration rendered for {o.host}")
  | some config =>
    match MachineConfig.installerImage config with
    | .error e => .error e
    | .ok image => (InstallerImage.parse image).map (image, ·)

theorem Observation.of_desired_eq_ok {image : String} {parts : InstallerImage}
    (h : o.desired = .ok (image, parts)) : ∃ config, o.config = some config ∧
      MachineConfig.installerImage config = .ok image ∧ InstallerImage.parse image = .ok parts := by
  unfold desired at h
  split at h
  · cases h
  next config hconfig =>
  split at h
  · cases h
  next image' himage =>
  cases hparse : InstallerImage.parse image' with
  | error e =>
    rw [hparse] at h
    cases h
  | ok parts' =>
    rw [hparse] at h
    cases h
    exact ⟨config, hconfig, himage, hparse⟩

theorem Observation.runs_eq_false_iff {image : InstallerImage} :
    o.runs image = false ↔ image.schematic ≠ o.schematic ∨ image.version ≠ o.osVersion := by
  unfold runs
  rw [Bool.and_eq_false_iff, beq_eq_false_iff_ne, beq_eq_false_iff_ne]

namespace Work

theorem desiredImage_eq : (desiredImage o : Work σ _) = ofExcept o.desired := by
  unfold desiredImage Observation.desired configOf
  cases o.config with
  | none => rfl
  | some config =>
    dsimp only
    rw [pure_bind]
    cases MachineConfig.installerImage config with
    | error e => rfl
    | ok image =>
      change (ofExcept (InstallerImage.parse image) >>= fun parts => pure (image, parts)) =
        ofExcept ((InstallerImage.parse image).map (image, ·))
      cases InstallerImage.parse image <;> rfl

/-- Sends the request; a refusal is an error of the host. -/
def sendUpgrade (host : String) (client : Client) (r : UpgradeRequest) : Work σ Unit := do
  match ← request client (.upgrade r) with
  | .error e => fail (.upgrade host e)
  | .ok () => return ()

def requestUpgrade (o : Observation) (options : UpgradeOptions) (image : String) :
    Work σ UpgradeOutcome := do
  let client ← connected o.node
  sendUpgrade o.host client (options.request image)
  return .upgraded

def upgradeCall (o : Observation) (options : UpgradeOptions) : Work σ UpgradeOutcome := do
  let (image, desired) ← ofExcept o.desired
  if o.runs desired then return .upToDate
  if options.dryRun then return .pending
  if options.confirm then
    if !(← ask (upgradeQuestion o.host image)) then return .skipped
  requestUpgrade o options image

theorem upgradeNode_eq :
    (upgradeNode o options : Work σ _) =
      upgradeCall o options >>= settled (· == .upgraded) o := by
  have hrequest (image : String) (settle : Except ApiError Unit → Work σ UpgradeOutcome)
      (hrefused : ∀ e, settle (.error e) = fail (.upgrade o.host e))
      (haccepted : settle (.ok ()) = waitStable o.node stableWindow >>= fun _ => pure .upgraded) :
      (connected o.node >>= fun client =>
        request client (.upgrade (options.request image)) >>= settle) =
        requestUpgrade o options image >>= settled (· == .upgraded) o := by
    unfold requestUpgrade sendUpgrade
    simp only [bind_assoc]
    congr 1
    funext client
    congr 1
    funext answer
    cases answer with
    | error e => exact hrefused e
    | ok _ => exact haccepted
  unfold upgradeNode upgradeCall
  rw [desiredImage_eq]
  simp only [bind_assoc]
  congr 1
  funext ⟨image, desired⟩
  dsimp only
  split
  · rfl
  split
  · rfl
  split
  · simp only [bind_assoc]
    congr 1
    funext yes
    cases yes with
    | false => rfl
    | true => exact hrequest image _ (fun _ => rfl) rfl
  · exact hrequest image _ (fun _ => rfl) rfl

end Work

/-- What stands in the journal before the node is connected to: a yes if the operator has to be asked. -/
inductive UpgradeApproval (options : UpgradeOptions) (host image : String) : List Entry → Prop
  | waived (h : options.confirm = false) : UpgradeApproval options host image []
  | asked {t t'} (h : options.confirm = true) :
      UpgradeApproval options host image
        (exchange (.ask (Work.upgradeQuestion host image)) t t' (.ok true))

/-- What the turn of a node leaves in the journal up to the accepted request, and what it comes to. -/
inductive UpgradeTrace (options : UpgradeOptions) (o : Observation) :
    List Entry → Except Stop UpgradeOutcome → Prop
  | unimaged {e} (himage : o.desired = .error e) : UpgradeTrace options o [] (.error (.error e))
  | upToDate {image parts} (himage : o.desired = .ok (image, parts)) (hruns : o.runs parts = true) :
      UpgradeTrace options o [] (.ok .upToDate)
  | pending {image parts} (himage : o.desired = .ok (image, parts)) (hruns : o.runs parts = false)
      (hdry : options.dryRun = true) : UpgradeTrace options o [] (.ok .pending)
  | undecided {image parts es stop} (himage : o.desired = .ok (image, parts))
      (hruns : o.runs parts = false) (hdry : options.dryRun = false) (hconfirm : options.confirm = true)
      (hes : Demanded (.ask (Work.upgradeQuestion o.host image)) id es (.error stop)) :
      UpgradeTrace options o es (.error stop)
  | declined {image parts t t'} (himage : o.desired = .ok (image, parts))
      (hruns : o.runs parts = false) (hdry : options.dryRun = false)
      (hconfirm : options.confirm = true) :
      UpgradeTrace options o (exchange (.ask (Work.upgradeQuestion o.host image)) t t' (.ok false))
        (.ok .skipped)
  | unconnected {image parts asked es stop} (himage : o.desired = .ok (image, parts))
      (hruns : o.runs parts = false) (hdry : options.dryRun = false)
      (hasked : UpgradeApproval options o.host image asked) (hes : Connects o.node es (.error stop)) :
      UpgradeTrace options o (asked ++ es) (.error stop)
  | requested {image parts asked client t t' es r} (himage : o.desired = .ok (image, parts))
      (hruns : o.runs parts = false) (hdry : options.dryRun = false)
      (hasked : UpgradeApproval options o.host image asked) (hclient : client.node = o.node)
      (hes : Demanded (.request client (.upgrade (options.request image))) (.upgrade o.host) es r) :
      UpgradeTrace options o (asked ++ opened client t t' ++ es) (r.map fun _ => .upgraded)

namespace Work

theorem Leaves.requestUpgrade {image : String} {parts : InstallerImage} {asked : List Entry}
    (himage : o.desired = .ok (image, parts)) (hruns : o.runs parts = false)
    (hdry : options.dryRun = false) (hasked : UpgradeApproval options o.host image asked) :
    (requestUpgrade o options image : Work σ _).Leaves S
      fun es r => UpgradeTrace options o (asked ++ es) r := by
  refine .bind (Q := Connects o.node) .connect
    (fun es stop hes => .unconnected himage hruns hdry hasked hes) fun opening client hopening => ?_
  obtain ⟨t, t', hclient, rfl⟩ := hopening.ok_cases
  have hsend : (sendUpgrade o.host client (options.request image) : Work σ Unit).Leaves S
      (Demanded (.request client (.upgrade (options.request image))) (.upgrade o.host)) :=
    .demand (fun _ => rfl) fun _ => rfl
  refine .bind hsend (fun es stop hes => ?_) fun es a hes => ?_
  · have htrace : UpgradeTrace options o (asked ++ opened client t t' ++ es) (.error stop) :=
      .requested himage hruns hdry hasked hclient hes
    rwa [List.append_assoc] at htrace
  · have htrace : UpgradeTrace options o (asked ++ opened client t t' ++ es) (.ok .upgraded) :=
      .requested himage hruns hdry hasked hclient hes
    exact .pure (by simpa using htrace)

theorem Leaves.upgradeCall : (upgradeCall o options : Work σ _).Leaves S (UpgradeTrace options o) := by
  unfold Work.upgradeCall
  cases himage : o.desired with
  | error e => exact .fail (.unimaged himage)
  | ok desired =>
    obtain ⟨image, parts⟩ := desired
    change Leaves S _ (if o.runs parts = true then pure UpgradeOutcome.upToDate else _)
    split
    · next hruns => exact .pure (.upToDate himage hruns)
    next hruns =>
    have hruns : o.runs parts = false := by simpa using hruns
    split
    · next hdry => exact .pure (.pending himage hruns hdry)
    next hdry =>
    have hdry : options.dryRun = false := by simpa using hdry
    split
    · next hconfirm =>
      refine .bind .ask (fun es stop hes => .undecided himage hruns hdry hconfirm hes)
        fun es yes hes => ?_
      obtain ⟨t, t', rfl⟩ := hes.ok_cases
      cases yes with
      | false =>
        have htrace : UpgradeTrace options o
            (exchange (.ask (upgradeQuestion o.host image)) t t' (.ok false)) (.ok .skipped) :=
          .declined himage hruns hdry hconfirm
        exact .pure (by simpa using htrace)
      | true => exact Leaves.requestUpgrade himage hruns hdry (.asked hconfirm)
    · next hconfirm =>
      have hwaived : UpgradeApproval options o.host image [] := .waived (by simpa using hconfirm)
      exact Leaves.requestUpgrade himage hruns hdry hwaived

theorem Runs.upgradeCall : (upgradeCall o options : Work σ _).Runs S (InTurn o.node) := by
  have hrequest (image : String) :
      (requestUpgrade o options image : Work σ _).Runs S (InTurn o.node) := by
    refine .bind_of_ends (.connected (.inl rfl)) fun w client w₁ hclient => ?_
    refine .bind (.bind (.request (.inl ?_)) fun answer => ?_) fun _ => .pure _
    · exact congrArg some (node_of_ends_connected hclient)
    · cases answer with
      | error e => exact .fail _
      | ok _ => exact .pure _
  refine .bind (.ofExcept _) fun desired => ?_
  dsimp only
  split
  · exact .pure _
  split
  · exact .pure _
  split
  · refine .bind (.ask (.inr rfl)) fun yes => ?_
    split
    · exact .pure _
    · exact hrequest _
  · exact hrequest _

end Work

/-! ## Reading a trace -/

def Call.Upgrades (c : Call) : Prop := ∃ client q, c = .request client (.upgrade q)

theorem Call.not_upgrades_of_operator {c : Call} (h : c.node? = none) : ¬ c.Upgrades := by
  rintro ⟨client, q, rfl⟩
  cases h

theorem Watches.not_upgrades {node : Node} {c : Call} (h : Watches node c) : ¬ c.Upgrades := by
  rintro ⟨client, q, rfl⟩
  rcases h with h | ⟨client', -, h | h⟩ <;> cases h

/-- Does a request to upgrade go out to the host here? -/
def Entry.upgrades (host : String) : Entry → Bool
  | sent _ (.request client (.upgrade _)) => client.node.host == host
  | _ => false

def Entry.upgraded? : Entry → Option Instant
  | answered t (.request _ (.upgrade _)) (.ok _) => some t
  | _ => none

theorem Entry.call_of_upgrades {e : Entry} {host : String} (h : e.upgrades host = true) :
    ∃ client q, client.node.host = host ∧ e.call = .request client (.upgrade q) := by
  unfold upgrades at h
  split at h
  · exact ⟨_, _, eq_of_beq h, rfl⟩
  · cases h

theorem Entry.eq_of_upgraded? {e : Entry} {t : Instant} (h : e.upgraded? = some t) :
    e.call.Upgrades ∧ e.time = t := by
  unfold upgraded? at h
  split at h
  · cases h
    exact ⟨⟨_, _, rfl⟩, rfl⟩
  · cases h

theorem upgraded?_eq_nil {es : List Entry} (h : ∀ e ∈ es, ¬ e.call.Upgrades) :
    es.filterMap Entry.upgraded? = [] := by
  refine List.filterMap_eq_nil_iff.2 fun e he => ?_
  cases hupgraded : e.upgraded? with
  | none => rfl
  | some t => exact absurd (e.eq_of_upgraded? hupgraded).1 (h e he)

theorem countP_upgrades_eq_zero {es : List Entry} {host : String}
    (h : ∀ e ∈ es, ¬ e.call.Upgrades) : es.countP (Entry.upgrades host) = 0 := by
  refine List.countP_eq_zero.2 fun e he hupgrades => h e he ?_
  obtain ⟨client, q, -, hcall⟩ := e.call_of_upgrades hupgrades
  exact ⟨client, q, hcall⟩

variable {before after es : List Entry} {r : Except Stop UpgradeOutcome} {t : Instant}
  {client : Client} {q : UpgradeRequest} {host image question : String}

theorem UpgradeApproval.node?_of_mem (h : UpgradeApproval options host image es) :
    ∀ e ∈ es, e.call.node? = none := by
  cases h with
  | waived => simp
  | asked =>
    intro e he
    rw [call_of_mem_exchange he]
    rfl

/-- If the operator was asked, the answer was yes. -/
theorem UpgradeApproval.no_not_mem (h : UpgradeApproval options host image es) :
    .answered t (.ask question) (.ok false) ∉ es := by
  cases h with
  | waived => simp
  | asked =>
    intro he
    rcases mem_exchange.1 he with he | he <;> cases he

theorem UpgradeApproval.not_upgrades {t' : Instant} (h : UpgradeApproval options host image es) :
    ∀ e ∈ es ++ opened client t t', ¬ e.call.Upgrades := by
  refine List.forall_mem_append.2 ⟨fun e he => Call.not_upgrades_of_operator (h.node?_of_mem e he), ?_⟩
  rintro e he ⟨client', q, hcall⟩
  cases (call_of_mem_opened he).symm.trans hcall

namespace UpgradeTrace

/-- A trace has no request, or ends with one that was due and approved. -/
theorem request_cases (h : UpgradeTrace options o es r) :
    ((∀ e ∈ es, ¬ e.call.Upgrades) ∧ r ≠ .ok .upgraded) ∨
      ∃ image parts asked client t t' es' r', o.desired = .ok (image, parts) ∧
        o.runs parts = false ∧ options.dryRun = false ∧ UpgradeApproval options o.host image asked ∧
        client.node = o.node ∧
        Demanded (.request client (.upgrade (options.request image))) (.upgrade o.host) es' r' ∧
        es = asked ++ opened client t t' ++ es' ∧ r = r'.map fun _ => .upgraded := by
  cases h with
  | unimaged => exact .inl ⟨by simp, by simp⟩
  | upToDate => exact .inl ⟨by simp, by simp⟩
  | pending => exact .inl ⟨by simp, by simp⟩
  | undecided _ _ _ _ hes =>
    refine .inl ⟨fun e he => Call.not_upgrades_of_operator ?_, by simp⟩
    rw [hes.call_of_mem e he]
    rfl
  | declined =>
    refine .inl ⟨fun e he => Call.not_upgrades_of_operator ?_, by simp⟩
    rw [call_of_mem_exchange he]
    rfl
  | unconnected _ _ _ hasked hes =>
    refine .inl ⟨List.forall_mem_append.2 ⟨fun e he => ?_, ?_⟩, by simp⟩
    · exact Call.not_upgrades_of_operator (hasked.node?_of_mem e he)
    · rintro e he ⟨client, q, hcall⟩
      cases (hes.call_of_mem e he).symm.trans hcall
  | requested himage hruns hdry hasked hclient hes =>
    exact .inr ⟨_, _, _, _, _, _, _, _, himage, hruns, hdry, hasked, hclient, hes, rfl, rfl⟩

theorem before_request
    (h : UpgradeTrace options o (before ++ .sent t (.request client (.upgrade q)) :: after) r) :
    ∃ image parts asked t₀ t₁, o.desired = .ok (image, parts) ∧ o.runs parts = false ∧
      options.dryRun = false ∧ UpgradeApproval options o.host image asked ∧ client.node = o.node ∧
      q = options.request image ∧ before = asked ++ opened client t₀ t₁ := by
  have hupgrades : (Call.request client (.upgrade q)).Upgrades := ⟨client, q, rfl⟩
  rcases h.request_cases with ⟨hnone, -⟩ |
    ⟨image, parts, asked, client', t₀, t₁, es', r', himage, hruns, hdry, hasked, hclient, hes, hsplit, -⟩
  · exact absurd hupgrades (hnone (.sent t _) (by simp))
  · obtain ⟨rfl, hcall⟩ := hes.eq_of_sent hasked.not_upgrades hupgrades hsplit.symm
    cases hcall
    exact ⟨image, parts, asked, t₀, t₁, himage, hruns, hdry, hasked, hclient, rfl, rfl⟩

/-- An accepted request is the last entry and makes the outcome. -/
theorem of_accepted
    (h : UpgradeTrace options o
      (before ++ .answered t (.request client (.upgrade q)) (.ok ()) :: after) r) :
    after = [] ∧ r = .ok .upgraded ∧ client.node = o.node := by
  have hupgrades : (Call.request client (.upgrade q)).Upgrades := ⟨client, q, rfl⟩
  rcases h.request_cases with ⟨hnone, -⟩ |
    ⟨image, parts, asked, client', t₀, t₁, es', r', -, -, -, hasked, hclient, hes, hsplit, rfl⟩
  · exact absurd hupgrades (hnone (.answered t _ (.ok ())) (by simp))
  · obtain ⟨-, rfl, hcall, b, rfl⟩ := hes.of_answered hasked.not_upgrades hupgrades hsplit.symm
    cases hcall
    exact ⟨rfl, rfl, hclient⟩

/-- The operator says no to nothing, or to the only question. -/
theorem no_cases (h : UpgradeTrace options o es r) :
    (∀ t question, .answered t (.ask question) (.ok false) ∉ es) ∨
      ∃ image parts t t', o.desired = .ok (image, parts) ∧
        es = exchange (.ask (Work.upgradeQuestion o.host image)) t t' (.ok false) ∧
        r = .ok .skipped := by
  cases h with
  | unimaged => exact .inl (by simp)
  | upToDate => exact .inl (by simp)
  | pending => exact .inl (by simp)
  | undecided _ _ _ _ hes =>
    refine .inl fun t question he => ?_
    cases hes.call_of_mem _ he
    cases hes.eq_of_mem_answered he
  | declined himage => exact .inr ⟨_, _, _, _, himage, rfl, rfl⟩
  | unconnected _ _ _ hasked hes =>
    refine .inl fun t question he => ?_
    rcases List.mem_append.1 he with he | he
    · exact hasked.no_not_mem he
    · cases hes.call_of_mem _ he
  | requested _ _ _ hasked _ hes =>
    refine .inl fun t question he => ?_
    rcases List.mem_append.1 he with he | he
    · rcases List.mem_append.1 he with he | he
      · exact hasked.no_not_mem he
      · cases call_of_mem_opened he
    · cases hes.call_of_mem _ he

theorem of_no
    (h : UpgradeTrace options o (before ++ .answered t (.ask question) (.ok false) :: after) r) :
    after = [] ∧ r = .ok .skipped ∧ (∀ e ∈ before, e.call.node? = none) ∧
      ∃ image parts, o.desired = .ok (image, parts) ∧ question = Work.upgradeQuestion o.host image := by
  rcases h.no_cases with hnone | ⟨image, parts, t₀, t₁, himage, hes, hr⟩
  · exact absurd (by simp) (hnone t question)
  · have hexchange : exchange (.ask (Work.upgradeQuestion o.host image)) t₀ t₁ (.ok false) =
        [.sent t₀ (.ask (Work.upgradeQuestion o.host image))] ++
          .answered t₁ (.ask (Work.upgradeQuestion o.host image)) (.ok false) :: [] := rfl
    obtain ⟨rfl, he, rfl⟩ := split_unique
      (P := fun e => ∃ t question, e = .answered t (.ask question) (.ok false)) hexchange hes.symm
      ⟨t, question, rfl⟩ (by simp) (by simp)
    cases he
    exact ⟨rfl, hr, by simp [Entry.call, Call.node?], image, parts, himage, rfl⟩

/-- The outcome tells whether a request was accepted: one was, or none. -/
theorem accepted_cases (h : UpgradeTrace options o es r) :
    (r = .ok .upgraded ∧ ∃ t, es.filterMap Entry.upgraded? = [t]) ∨
      (r ≠ .ok .upgraded ∧ es.filterMap Entry.upgraded? = []) := by
  rcases h.request_cases with ⟨hnone, hr⟩ |
    ⟨image, parts, asked, client, t₀, t₁, es', r', -, -, -, hasked, -, hes, rfl, rfl⟩
  · exact .inr ⟨hr, upgraded?_eq_nil hnone⟩
  · rw [List.filterMap_append, upgraded?_eq_nil hasked.not_upgrades, List.nil_append]
    cases hes with
    | silent => exact .inr ⟨by simp [Except.map], rfl⟩
    | refused => exact .inr ⟨by simp [Except.map], rfl⟩
    | @answered t t' a => exact .inl ⟨rfl, t', rfl⟩

theorem requests_le_one (h : UpgradeTrace options o es r) : es.countP (Entry.upgrades host) ≤ 1 := by
  rcases h.request_cases with ⟨hnone, -⟩ |
    ⟨image, parts, asked, client, t₀, t₁, es', r', -, -, -, hasked, -, hes, rfl, -⟩
  · rw [countP_upgrades_eq_zero hnone]
    exact Nat.zero_le 1
  · rw [List.countP_append, countP_upgrades_eq_zero hasked.not_upgrades, Nat.zero_add]
    exact hes.countP_le_one fun _ _ => rfl

end UpgradeTrace
end Rollout
