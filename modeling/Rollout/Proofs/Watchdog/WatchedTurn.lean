import Rollout.Proofs.Apply.Turn
import Rollout.Proofs.Run.Leaving
import Rollout.Proofs.Run.Turns

/-!
# Turns that end under the watchdog

Configuring a node and upgrading it have one shape: unless the run is cancelled something is done with
the node, and an outcome that asks for it is followed by a wait until the node is stable. `WatchedTurn`
says what comes of such a turn when it is known what is left in the journal by the part before the wait.
-/

namespace Rollout

variable {σ α : Type}

namespace Work

/-- The end of a turn: a `watched` outcome is waited for. -/
def settled (watched : α → Bool) (o : Observation) (outcome : α) : Work σ α := do
  if watched outcome then waitStable o.node stableWindow
  return outcome

/-- A turn of this shape: `act` is done with the node. -/
def watchedTurn (act : Observation → Work σ α) (watched : α → Bool) (o : Observation) :
    Work σ α := do
  checkpoint
  let outcome ← act o
  settled watched o outcome

end Work

/-- What comes of a turn begun in `w`; `trace` tells what its first part leaves. -/
inductive WatchedTurn (S : Setting σ) (trace : List Entry → Except Stop α → Prop) (watched : α → Bool)
    (node : Node) (w : World σ) : Except Stop α → World σ → Prop
  | cancelled (hraised : S.RaisedBy w.journal w.now) :
      WatchedTurn S trace watched node w (.error (.error .cancelled)) w
  | settled {es r w'} (hraised : ¬ S.RaisedBy w.journal w.now) (htrace : trace es r)
      (hgains : w.Gains w' es) (hcalls : w.Extends (InTurn node) w')
      (hquiet : ∀ a, r = .ok a → watched a = false) : WatchedTurn S trace watched node w r w'
  | watched {es a v r w'} (hraised : ¬ S.RaisedBy w.journal w.now) (htrace : trace es (.ok a))
      (hgains : w.Gains v es) (hcalls : w.Extends (InTurn node) v) (hwatched : watched a = true)
      (hstable : (Work.waitStable node stableWindow).Ends S v r w') :
      WatchedTurn S trace watched node w (r.map fun _ => a) w'

variable {S : Setting σ} {w w' : World σ} {r : Except Stop α} {watched : α → Bool}

theorem Work.Runs.watchedTurn {act : Observation → Work σ α} {o : Observation} {P : Call → Prop}
    (hlimit : S.limit = none) (hact : (act o).Runs S P)
    (hwatch : ∀ a, watched a = true → ∀ c, Watches o.node c → P c) :
    (watchedTurn act watched o).Runs S P := by
  refine .bind .checkpoint fun _ => .bind hact fun outcome => ?_
  unfold settled
  split
  · next hwatched =>
    exact .bind ((Runs.waitStable hlimit).mono (hwatch outcome hwatched)) fun _ => .pure _
  · exact .pure _

theorem Work.watchedTurn_of_ends {act : Observation → Work σ α} {o : Observation}
    {trace : List Entry → Except Stop α → Prop} (hleaves : (act o).Leaves S trace)
    (hcalls : (act o).Runs S (InTurn o.node)) (h : (watchedTurn act watched o).Ends S w r w') :
    WatchedTurn S trace watched o.node w r w' := by
  rcases ends_bind_iff.1 h with ⟨⟨⟩, w₁, hcheck, hrest⟩ | ⟨stop, hcheck, rfl⟩
  · obtain ⟨⟨-, hr⟩ | ⟨hraised, -⟩, rfl⟩ := ends_checkpoint_iff.1 hcheck
    · cases hr
    rcases ends_bind_iff.1 hrest with ⟨a, v, hact, hend⟩ | ⟨stop, hact, rfl⟩
    · obtain ⟨es, hgains, htrace⟩ := hleaves _ _ _ hact
      unfold settled at hend
      by_cases hwatched : watched a = true
      · rw [if_pos hwatched] at hend
        rcases ends_bind_iff.1 hend with ⟨⟨⟩, w₂, hstable, hend⟩ | ⟨stop, hstable, rfl⟩
        · obtain ⟨rfl, rfl⟩ := ends_pure_iff.1 hend
          exact .watched hraised htrace hgains (hact.extends hcalls) hwatched hstable
        · exact .watched hraised htrace hgains (hact.extends hcalls) hwatched hstable
      · rw [if_neg hwatched] at hend
        obtain ⟨rfl, rfl⟩ := ends_pure_iff.1 hend
        refine .settled hraised htrace hgains (hact.extends hcalls) ?_
        rintro a' ⟨⟩
        simpa using hwatched
    · obtain ⟨es, hgains, htrace⟩ := hleaves _ _ _ hact
      refine .settled hraised htrace hgains (hact.extends hcalls) ?_
      rintro a' ⟨⟩
  · obtain ⟨⟨hraised, hr⟩ | ⟨-, hr⟩, rfl⟩ := ends_checkpoint_iff.1 hcheck
    · cases hr
      exact .cancelled hraised
    · cases hr

namespace WatchedTurn

variable {trace : List Entry → Except Stop α → Prop} {node : Node} {es : List Entry}

theorem calls (hlimit : S.limit = none) (h : WatchedTurn S trace watched node w r w') :
    w.Extends (InTurn node) w' := by
  cases h with
  | cancelled => exact .refl w
  | settled _ _ _ hcalls => exact hcalls
  | watched _ _ _ hcalls _ hstable =>
    exact hcalls.trans ((hstable.extends (.waitStable hlimit)).mono fun _ hc => hc.inTurn)

/-- What a turn leaves is what its first part leaves and then calls of the watchdog. The two parts have
the same outcome, unless the watchdog fails. -/
theorem parts (hlimit : S.limit = none) (h : WatchedTurn S trace watched node w r w') :
    ∃ es rest, w.Gains w' (es ++ rest) ∧ (∀ e ∈ rest, Watches node e.call) ∧
      ((es = [] ∧ rest = [] ∧ r = .error (.error .cancelled)) ∨
        ∃ r₁, trace es r₁ ∧ (∀ a, r = .ok a → r₁ = .ok a) ∧
          ∀ a, r₁ = .ok a → watched a = false → r = .ok a) := by
  cases h with
  | cancelled => exact ⟨[], [], .refl w, by simp, .inl ⟨rfl, rfl, rfl⟩⟩
  | @settled es _ _ _ htrace hgains =>
    refine ⟨es, [], ?_, by simp, .inr ⟨r, htrace, fun _ hr => hr, fun _ hr _ => hr⟩⟩
    rwa [List.append_nil]
  | @watched es a v r _ _ htrace hgains _ hwatched hstable =>
    obtain ⟨rest, hrest, hall⟩ := (hstable.extends (.waitStable hlimit)).gains
    refine ⟨es, rest, hgains.trans hrest, fun e he => (hall e he).1, .inr ⟨_, htrace, ?_, ?_⟩⟩
    · intro a' hr
      cases r with
      | ok => exact hr
      | error => cases hr
    · rintro _ ⟨⟩ hquiet
      cases hquiet.symm.trans hwatched

/-- An entry that is no call of the watchdog belongs to the first part, and the watchdog begins where
that part ends. -/
theorem split_cases (hlimit : S.limit = none) (h : WatchedTurn S trace watched node w r w')
    {before after : List Entry} {e : Entry} (hes : w.Gains w' (before ++ e :: after))
    (he : ¬ Watches node e.call) :
    (trace (before ++ e :: after) r ∧ ∀ a, r = .ok a → watched a = false) ∨
      ∃ after' a v r₁ rest, trace (before ++ e :: after') (.ok a) ∧ watched a = true ∧
        w.Gains v (before ++ e :: after') ∧ (Work.waitStable node stableWindow).Ends S v r₁ w' ∧
        after = after' ++ rest ∧ r = r₁.map fun _ => a := by
  cases h with
  | cancelled => simpa using hes.unique (.refl w)
  | settled _ htrace hgains _ hquiet =>
    obtain rfl := hgains.unique hes
    exact .inl ⟨htrace, hquiet⟩
  | @watched es a v r₁ _ _ htrace hgains _ hwatched hstable =>
    obtain ⟨rest, hrest, hall⟩ := (hstable.extends (.waitStable hlimit)).gains
    rcases append_eq_append_cons_cases ((hgains.trans hrest).unique hes) with
      ⟨mid, rfl, rfl⟩ | ⟨mid, -, hmid⟩
    · exact .inr ⟨mid, a, v, r₁, rest, htrace, hwatched, hgains, hstable, rfl, rfl⟩
    · exact absurd (hall e (by simp [hmid])).1 he

theorem of_split (hlimit : S.limit = none) (h : WatchedTurn S trace watched node w r w')
    {before after : List Entry} {e : Entry} (hes : w.Gains w' (before ++ e :: after))
    (he : ¬ Watches node e.call) :
    ∃ after' r₁, trace (before ++ e :: after') r₁ ∧ (∀ a, r = .ok a → r₁ = .ok a) ∧
      ∀ a, r₁ = .ok a → watched a = false → r = .ok a := by
  rcases h.split_cases hlimit hes he with
    ⟨htrace, -⟩ | ⟨after', a, v, r₁, rest, htrace, hwatched, -, -, -, rfl⟩
  · exact ⟨after, r, htrace, fun _ hr => hr, fun _ hr _ => hr⟩
  · refine ⟨after', _, htrace, fun a' hr => ?_, ?_⟩
    · cases r₁ with
      | ok => exact hr
      | error => cases hr
    · rintro _ ⟨⟩ hquiet
      cases hquiet.symm.trans hwatched

/-- What the watchdog does not call is counted in the first part. -/
theorem countP_le {p : Entry → Bool} {n : ℕ} (hlimit : S.limit = none)
    (h : WatchedTurn S trace watched node w r w') (hes : w.Gains w' es)
    (hp : ∀ e, Watches node e.call → p e = false) (hn : ∀ es r, trace es r → es.countP p ≤ n) :
    es.countP p ≤ n := by
  obtain ⟨es', rest, hgains, hrest, hcases⟩ := h.parts hlimit
  obtain rfl := hes.unique hgains
  have hzero : rest.countP p = 0 :=
    List.countP_eq_zero.2 fun e he => by simp [hp e (hrest e he)]
  rw [List.countP_append, hzero, Nat.add_zero]
  rcases hcases with ⟨rfl, -, -⟩ | ⟨r₁, htrace, -, -⟩
  · exact Nat.zero_le n
  · exact hn es' r₁ htrace

/-- What only an outcome that is waited for leaves is left once a turn at most, and a whole window before
the turn is over. -/
theorem stamped {stamp : Entry → Option Instant} (hlimit : S.limit = none)
    (hstamp : ∀ e t, stamp e = some t → e.time = t)
    (hwatches : ∀ e, Watches node e.call → stamp e = none)
    (htrace : ∀ es r, trace es r → es.filterMap stamp = [] ∨
      ∃ a t, r = .ok a ∧ watched a = true ∧ es.filterMap stamp = [t])
    (h : WatchedTurn S trace watched node w r w') (hes : w.Gains w' es) :
    (es.filterMap stamp).length ≤ 1 ∧
      ∀ a, r = .ok a → ∀ t ∈ es.filterMap stamp, t + stableWindow ≤ w'.now := by
  cases h with
  | cancelled =>
    obtain rfl := hes.unique (.refl w)
    simp
  | settled _ htraced hgains _ hquiet =>
    obtain rfl := hes.unique hgains
    rcases htrace _ _ htraced with hnil | ⟨a, t, rfl, hwatched, -⟩
    · simp [hnil]
    · cases (hquiet a rfl).symm.trans hwatched
  | @watched log a v r₁ _ _ htraced hgains hcalls _ hstable =>
    obtain ⟨rest, hrest, hall⟩ := (hstable.extends (.waitStable hlimit)).gains
    obtain rfl := hes.unique (hgains.trans hrest)
    have hnone : rest.filterMap stamp = [] :=
      List.filterMap_eq_nil_iff.2 fun e he => hwatches e (hall e he).1
    rw [List.filterMap_append, hnone, List.append_nil]
    rcases htrace _ _ htraced with hnil | ⟨a', t, -, -, hone⟩
    · simp [hnil]
    rw [hone]
    refine ⟨le_rfl, fun a' hr t' ht' => ?_⟩
    obtain rfl := List.mem_singleton.1 ht'
    obtain ⟨e, he, hte⟩ : ∃ e ∈ log, stamp e = some t' := by
      rw [← List.mem_filterMap, hone]
      exact ht'
    have hearlier : t' ≤ v.now := hstamp e t' hte ▸ (hcalls.forall_mem hgains e he).2.2
    cases r₁ with
    | error => cases hr
    | ok =>
      calc t' + stableWindow
        _ ≤ v.now + stableWindow := Nat.add_le_add_right hearlier _
        _ ≤ w'.now := le_now_of_ends_waitStable hlimit hstable

theorem countP_le_of_host {p : Entry → Bool} {host : String} (hlimit : S.limit = none)
    (h : WatchedTurn S trace watched node w r w') (hes : w.Gains w' es)
    (hp : ∀ e, p e = true → ∃ node, e.call.node? = some node ∧ node.host = host)
    (hwatches : ∀ e, Watches node e.call → p e = false) (hn : ∀ es r, trace es r → es.countP p ≤ 1) :
    es.countP p ≤ if node.host == host then 1 else 0 := by
  by_cases hhost : node.host = host
  · rw [if_pos (beq_iff_eq.2 hhost)]
    exact h.countP_le hlimit hes hwatches hn
  · rw [if_neg (by simpa using hhost), Nat.le_zero]
    refine List.countP_eq_zero.2 fun e he hpe => ?_
    obtain ⟨node', hnode', hhost'⟩ := hp e hpe
    rcases ((h.calls hlimit).forall_mem hes e he).1 with hnode | hnode
    · obtain rfl := Option.some.inj (hnode.symm.trans hnode')
      exact hhost hhost'
    · cases hnode.symm.trans hnode'

end WatchedTurn

namespace Turnwise

variable {turn : Observation → World σ → Except Stop α → World σ → Prop} {es : List Entry}
  {r : Except Stop (List α)}

theorem not_called {records : List Observation} {node : Node}
    (hturn : ∀ o w r w', turn o w r w' → w.Extends (InTurn o.node) w')
    (h : Turnwise turn records w r w') (hes : w.Gains w' es) (hnode : ∀ o ∈ records, o.node ≠ node) :
    ∀ e ∈ es, e.call.node? ≠ some node := by
  intro e he hcall
  obtain ⟨o, ho, hc | hc⟩ := ((h.extends_of_turns hturn).forall_mem hes e he).1
  · exact hnode o ho (Option.some.inj (hc.symm.trans hcall))
  · cases hc.symm.trans hcall

variable {earlier later : List Observation} {o : Observation}

theorem not_called_of_nodup {records : List Observation}
    (hturn : ∀ o w r w', turn o w r w' → w.Extends (InTurn o.node) w')
    (hhosts : ((earlier ++ o :: later).map (·.host)).Nodup)
    (hrecords : ∀ o' ∈ records, o' ∈ earlier ++ later) (h : Turnwise turn records w r w')
    (hes : w.Gains w' es) : ∀ e ∈ es, e.call.node? ≠ some o.node := by
  refine h.not_called hturn hes fun o' ho' hnode => ?_
  exact ne_of_nodup_middle hhosts o' (hrecords o' ho') (congrArg Node.host hnode)

theorem not_called_of_failed {as : List α} {v : World σ} {stop : Stop}
    (hturn : ∀ o w r w', turn o w r w' → w.Extends (InTurn o.node) w')
    (hhosts : ((earlier ++ o :: later).map (·.host)).Nodup) (hearlier : Series turn earlier w as v)
    (hstop : turn o v (.error stop) w') (hes : w.Gains w' es) :
    ∀ o' ∈ later, ∀ e ∈ es, e.call.node? ≠ some o'.node := by
  intro o' ho'
  obtain ⟨before, after, rfl⟩ := List.append_of_mem ho'
  have hsplit : earlier ++ o :: (before ++ o' :: after) = (earlier ++ o :: before) ++ o' :: after := by
    simp
  rw [hsplit] at hhosts
  have hturns : Turnwise turn (earlier ++ [o]) w (.error stop) w' := .stopped rfl hearlier hstop
  refine hturns.not_called_of_nodup hturn hhosts (fun x hx => ?_) hes
  rcases List.mem_append.1 hx with hx | hx
  · simp [hx]
  · simp [List.mem_singleton.1 hx]

end Turnwise
end Rollout
