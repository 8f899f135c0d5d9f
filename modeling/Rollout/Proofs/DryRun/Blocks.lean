import Rollout.Proofs.Apply.Evolution
import Rollout.Proofs.Apply.TwoPhase

/-!
# What the operator is shown

In an apply run the operator is shown the details of previews, one block for each node that would change. A
block is about the node that was called last before. What a turn shows is settled by the conduct of its
node, in a dry run and in a run that asks alike (`Conduct.block?`).
-/

namespace Rollout

variable {σ τ : Type} {options : ApplyOptions} {o : Observation} {es : List Entry}

def Entry.text? : Entry → Option String
  | .sent _ (.display text) => some text
  | _ => none

/-- The texts shown to the operator, each with the host that was called last before it; `host` was called
last before the first entry. -/
def shownFrom (host : String) : List Entry → List (String × String)
  | [] => []
  | e :: rest => (e.text?.map (host, ·)).toList ++ shownFrom (e.host?.getD host) rest

def shown (log : List Entry) : List (String × String) := shownFrom "" log

theorem shownFrom_eq_nil {host : String} (h : ∀ e ∈ es, e.text? = none) : shownFrom host es = [] := by
  induction es generalizing host with
  | nil => rfl
  | cons e rest ih =>
    obtain ⟨he, hrest⟩ := List.forall_mem_cons.1 h
    unfold shownFrom
    rw [he, ih hrest]
    rfl

theorem exists_shownFrom_append (host : String) (es es' : List Entry) :
    ∃ last, shownFrom host (es ++ es') = shownFrom host es ++ shownFrom last es' := by
  induction es generalizing host with
  | nil => exact ⟨host, rfl⟩
  | cons e rest ih =>
    obtain ⟨last, hlast⟩ := ih (e.host?.getD host)
    refine ⟨last, ?_⟩
    rw [List.cons_append, shownFrom, shownFrom, hlast, List.append_assoc]

theorem Entry.text?_eq_none {e : Entry} (h : ∀ text, e.call ≠ .display text) : e.text? = none := by
  unfold text?
  split
  · next text => exact absurd rfl (h text)
  · rfl

/-! ## One turn -/

/-- The preview that a node gives of its record's configuration, if it comes to one. -/
def Conduct.preview? (conduct : Conduct τ) (o : Observation) (v : τ) : Option ApplyReply :=
  match o.config, (conduct.connect v).outcome with
  | some data, (v, .ok channel) =>
    (conduct.request v channel (.applyConfiguration data true)).outcome.2.toOption
  | _, _ => none

/-- What the operator is shown of the node: the details of a preview that changes something. -/
def Conduct.block? (conduct : Conduct τ) (o : Observation) (v : τ) : Option (String × String) :=
  ((conduct.preview? o v).filter (!isNoOp ·.details)).map fun reply => (o.host, reply.details)

theorem Previewed.preview?_eq {client : Client} {data : Bytes} {reply : ApplyReply} {log : List Entry}
    {env : Environment σ} {s s' : σ} {view : σ → τ} {conduct : Conduct τ}
    (h : Previewed o client data reply log) (hconducts : env.Conducts o.node view conduct)
    (hes : env.Evolves s (log ++ es) s') : conduct.preview? o (view s) = some reply := by
  cases h with
  | intro hconfig hclient =>
    unfold previewed opened at hes
    rw [hclient, List.append_assoc] at hes
    obtain ⟨s₁, hconnect, hes⟩ := hes.of_exchange
    obtain ⟨s₂, hpreview, -⟩ := hes.of_exchange
    have hopened := (hconducts.connect s _).respond hconnect
    have hreply := (hconducts.request s₁ _ client _ hclient).respond hpreview
    unfold Conduct.preview?
    rw [hconfig, hopened]
    exact congrArg (fun x => x.2.toOption) hreply

/-- A turn that is over has previewed the configuration. If every change is to be shown, its details are, and
nothing else is. -/
theorem ApplyTrace.block_cases {a : ApplyOutcome} (h : ApplyTrace options o es (.ok a))
    (hshows : options.dryRun = true ∨ options.confirm = true) :
    ∃ client data reply log rest, Previewed o client data reply log ∧ es = log ++ rest ∧
      (isNoOp reply.details = true ∧ rest = [] ∨
        isNoOp reply.details = false ∧ ∃ t t' quiet,
          rest = exchange (.display reply.details) t t' (.ok ()) ++ quiet ∧
            ∀ e ∈ quiet, e.text? = none) := by
  generalize hr : (.ok a : Except Stop ApplyOutcome) = r at h
  cases h with
  | unpreviewed => cases hr
  | unchanged hlog hnone => exact ⟨_, _, _, _, [], hlog, (List.append_nil _).symm, .inl ⟨hnone, rfl⟩⟩
  | @rehearsed client data reply log es r hlog hchange _ hes =>
    cases r with
    | error => cases hr
    | ok =>
      obtain ⟨t, t', rfl⟩ := hes.ok_cases
      exact ⟨_, _, _, _, _, hlog, rfl, .inr ⟨hchange, t, t', [], rfl, by simp⟩⟩
  | undecided => cases hr
  | declined hlog hchange hdry hes =>
    obtain ⟨hconfirm, -, -⟩ | ⟨-, t₀, t₁, t₂, t₃, rfl⟩ := hes.ok_cases
    · simp [hdry, hconfirm] at hshows
    · refine ⟨_, _, _, _, _, hlog, rfl, .inr ⟨hchange, t₀, t₁, _, rfl, fun e he => ?_⟩⟩
      exact e.text?_eq_none fun text hcall => by cases (call_of_mem_exchange he).symm.trans hcall
  | committed hlog hchange hdry hes hcommit =>
    obtain ⟨hconfirm, -, -⟩ | ⟨-, t₀, t₁, t₂, t₃, rfl⟩ := hes.ok_cases
    · simp [hdry, hconfirm] at hshows
    · rw [List.append_assoc, List.append_assoc]
      refine ⟨_, _, _, _, _, hlog, rfl, .inr ⟨hchange, t₀, t₁, _, rfl, ?_⟩⟩
      refine List.forall_mem_append.2 ⟨fun e he => ?_, fun e he => ?_⟩
      · exact e.text?_eq_none fun text hcall => by cases (call_of_mem_exchange he).symm.trans hcall
      · exact e.text?_eq_none fun text hcall => by cases (hcommit.call_of_mem e he).symm.trans hcall

theorem Previewed.shownFrom_append {client : Client} {data : Bytes} {reply : ApplyReply}
    {log : List Entry} (h : Previewed o client data reply log) (host : String) (rest : List Entry) :
    shownFrom host (log ++ rest) = shownFrom o.host rest := by
  cases h with
  | intro _ hclient => exact congrArg (fun node : Node => shownFrom node.host rest) hclient

variable {S : Setting σ} {w w' : World σ} {stabilize : Bool}

/-- A turn that is over shows the block of its node, whatever was called before. -/
theorem shownFrom_of_ends_applyTurn (hlimit : S.limit = none)
    (hshows : options.dryRun = true ∨ options.confirm = true) {view : σ → τ} {conduct : Conduct τ}
    (hconducts : S.environment.Conducts o.node view conduct) {a : ApplyOutcome}
    (h : applyTurns S options stabilize o w (.ok a) w') (hes : w.Gains w' es) (host : String) :
    shownFrom host es = (conduct.block? o (view w.state)).toList := by
  obtain ⟨piece, watch, hgains, hwatch, ⟨-, -, hr⟩ | ⟨r, htrace, hok, -⟩⟩ :=
    (Work.watchedTurn_of_ends_applyTurn h).parts hlimit
  · cases hr
  obtain rfl := hok a rfl
  obtain rfl := hes.unique hgains
  obtain ⟨client, data, reply, log, rest, hlog, rfl, hcases⟩ := htrace.block_cases hshows
  have hevolves := (Work.Accounted.applyTurn _ _ _ _ h).of_gains hes
  rw [List.append_assoc] at hevolves
  have hpreview := hlog.preview?_eq hconducts hevolves
  have hquiet : ∀ e ∈ watch, e.text? = none := fun e he => e.text?_eq_none fun text hcall => by
    rcases hwatch e he with h | ⟨client, -, h | h⟩ <;> cases h.symm.trans hcall
  unfold Conduct.block?
  rw [hpreview, List.append_assoc, hlog.shownFrom_append]
  rcases hcases with ⟨hnone, rfl⟩ | ⟨hchange, t, t', quiet, rfl, hsilent⟩
  · simp [hnone, shownFrom_eq_nil hquiet]
  · have hrest : shownFrom o.host (quiet ++ watch) = [] :=
      shownFrom_eq_nil (List.forall_mem_append.2 ⟨hsilent, hquiet⟩)
    have hblock : shownFrom o.host (exchange (.display reply.details) t t' (.ok ()) ++ (quiet ++ watch)) =
        (o.host, reply.details) :: shownFrom o.host (quiet ++ watch) := rfl
    rw [List.append_assoc, hblock, hrest]
    rw [Option.filter_some, if_pos (by simp [hchange])]
    rfl

theorem shownFrom_of_series (hlimit : S.limit = none)
    (hshows : options.dryRun = true ∨ options.confirm = true) {view : Node → σ → τ}
    {conduct : Node → Conduct τ} {eligible : List Observation} {as : List ApplyOutcome}
    (hhosts : (eligible.map (·.host)).Nodup)
    (hconducts : ∀ o ∈ eligible, S.environment.Conducts o.node (view o.node) (conduct o.node))
    (h : Series (applyTurns S options stabilize) eligible w as w') (hes : w.Gains w' es)
    (host : String) :
    shownFrom host es =
      eligible.filterMap fun o => (conduct o.node).block? o (view o.node w.state) := by
  induction h generalizing es host with
  | nil =>
    obtain rfl := hes.unique (.refl _)
    rfl
  | @cons o rest w a as w₁ w' hturn hrest ih =>
    have hextends := extends_of_ends_applyTurn hlimit o w (.ok a) w₁ hturn
    obtain ⟨piece, hpiece, -⟩ := hextends.gains
    obtain ⟨later, hlater⟩ := exists_gains_of_applyTurns hlimit (.finished hrest)
    obtain rfl := hes.unique (hpiece.trans hlater)
    obtain ⟨hfirst, hothers⟩ := List.nodup_cons.1 hhosts
    obtain ⟨hconduct, hconducts⟩ := List.forall_mem_cons.1 hconducts
    obtain ⟨last, hlast⟩ := exists_shownFrom_append host piece later
    rw [hlast, shownFrom_of_ends_applyTurn hlimit hshows hconduct hturn hpiece,
      ih hothers hconducts hlater]
    -- The later nodes are as they were when the first turn began.
    have hkept : ∀ o' ∈ rest, (conduct o'.node).block? o' (view o'.node w₁.state) =
        (conduct o'.node).block? o' (view o'.node w.state) := by
      intro o' ho'
      have hhost : o.host ≠ o'.node.host := fun heq => hfirst (List.mem_map.2 ⟨o', ho', heq.symm⟩)
      rw [keeps_of_ends_applyTurn hlimit (hconducts o' ho') hhost hturn]
    rw [List.filterMap_congr hkept, List.filterMap_cons]
    cases (conduct o.node).block? o (view o.node w.state) <;> rfl

end Rollout
