import Rollout.Proofs.Etcd.History
import Rollout.Proofs.Watchdog.WatchedTurn

/-!
# Between two looks at the signal

A run looks at the signal before the turn of each node and before each attempt of a retry. `Strides` is
what it does from one look to the next, and `Work.Heeds` says of work that it is nothing but strides. A
stride begins only while the signal is not raised, so the stride in which it is raised is the last.
-/

namespace Rollout

variable {σ α β ι : Type}

/-- What a run sets out to do after a look at the signal. -/
inductive Errand where
  /-- The turn of a node, up to where the watchdog takes over. -/
  | turn (o : Observation)
  /-- One attempt of the watchdog. -/
  | watch (node : Node)
  /-- One attempt to start etcd. -/
  | start (seed : Node)

/-- What an errand can come to; `act` is what is done with a node in its turn. -/
inductive Errand.Done (act : Observation → Work σ α) (S : Setting σ) :
    Errand → World σ → World σ → Prop
  | turn {o r v u} (h : (act o).Ends S v r u) : Done act S (.turn o) v u
  | watch {node r v u}
      (h : ((stabilizeBudget stableWindow).attempt (Work.stableAttempt node stableWindow)).Ends S v r u) :
      Done act S (.watch node) v u
  | start {seed r v u} (h : (etcdBudget.attempt (Work.etcdAttempt seed)).Ends S v r u) :
      Done act S (.start seed) v u

/-- An errand with the worlds it begins and ends in, and what it leaves in the journal. -/
structure Stride (σ : Type) where
  errand : Errand
  begun : World σ
  ended : World σ
  log : List Entry

structure Stride.Taken (act : Observation → Work σ α) (S : Setting σ) (s : Stride σ) : Prop where
  unraised : ¬ S.RaisedBy s.begun.journal s.begun.now
  done : s.errand.Done act S s.begun s.ended
  gains : s.begun.Gains s.ended s.log

/-- Strides one after the other, with pauses in which nothing is called. -/
inductive Strides (act : Observation → Work σ α) (S : Setting σ) :
    World σ → List (Stride σ) → World σ → Prop
  | nil {w} : Strides act S w [] w
  | pause {w t ss w'} (rest : Strides act S (w.advance t) ss w') : Strides act S w ss w'
  | cons {s ss w'} (h : s.Taken act S) (rest : Strides act S s.ended ss w') :
      Strides act S s.begun (s :: ss) w'

variable {act : Observation → Work σ α} {S : Setting σ} {w v w' : World σ} {ss later : List (Stride σ)}

theorem Strides.append (h : Strides act S w ss v) (hlater : Strides act S v later w') :
    Strides act S w (ss ++ later) w' := by
  induction h with
  | nil => exact hlater
  | pause _ ih => exact .pause (ih hlater)
  | cons h _ ih => exact .cons h (ih hlater)

theorem Strides.forall_taken (h : Strides act S w ss w') : ∀ s ∈ ss, s.Taken act S := by
  induction h with
  | nil => simp
  | pause _ ih => exact ih
  | cons h _ ih => exact List.forall_mem_cons.2 ⟨h, ih⟩

theorem Strides.gains (h : Strides act S w ss w') : w.Gains w' (ss.flatMap Stride.log) := by
  induction h with
  | nil => exact .refl _
  | pause _ ih => exact ih
  | cons h _ ih => exact h.gains.trans ih

/-! ## The order of strides -/

theorem Errand.Done.extends {errand : Errand} {u : World σ} (h : errand.Done act S v u)
    (hact : ∀ o, (act o).Runs S fun _ => True) : v.Extends (fun _ => True) u := by
  cases h with
  | turn h => exact h.extends (hact _)
  | watch h => exact (h.extends (.attempt fun _ => .stableAttempt)).mono fun _ _ => trivial
  | start h => exact (h.extends (.attempt fun _ => .etcdAttempt)).mono fun _ _ => trivial

variable (hact : ∀ o, (act o).Runs S fun _ => True)
include hact

theorem Strides.extends (h : Strides act S w ss w') : w.Extends (fun _ => True) w' := by
  induction h with
  | nil => exact .refl _
  | pause _ ih => exact (World.Extends.advance _ _).trans ih
  | cons h _ ih => exact (h.done.extends hact).trans ih

/-- A stride begins after the strides began, and all that follows extends it. -/
theorem Strides.between (h : Strides act S w ss w') :
    ∀ s ∈ ss, w.now ≤ s.begun.now ∧ s.ended.Extends (fun _ => True) w' := by
  induction h with
  | nil => simp
  | pause _ ih =>
    intro s hs
    obtain ⟨hbegun, hover⟩ := ih s hs
    exact ⟨(le_max_left _ _).trans hbegun, hover⟩
  | cons h rest ih =>
    refine List.forall_mem_cons.2 ⟨⟨le_rfl, rest.extends hact⟩, fun s hs => ?_⟩
    obtain ⟨hbegun, hover⟩ := ih s hs
    exact ⟨(h.done.extends hact).now_le.trans hbegun, hover⟩

theorem Strides.pairwise (h : Strides act S w ss w') :
    ss.Pairwise fun s s' => s.ended.now ≤ s'.begun.now := by
  induction h with
  | nil => exact .nil
  | pause _ ih => exact ih
  | cons _ rest ih => exact .cons (fun s hs => (rest.between hact s hs).1) ih

omit hact

/-- Where the signal is not raised yet, it is not raised before the time it is there. -/
theorem le_of_not_raisedBy {P : Call → Prop} {c : Instant} (h : ¬ S.RaisedBy w.journal w.now)
    (hextends : w.Extends P w') (hc : S.signal.raisedAt? w'.journal = some c) : w.now ≤ c := by
  cases hraised : S.signal.raisedAt? w.journal with
  | some raised =>
    have hsame : raised = c := by
      obtain ⟨es, hgains, -⟩ := hextends.gains
      unfold Signal.raisedAt? at hraised hc
      cases hsignal : S.signal with
      | never => simp [hsignal] at hraised
      | atTime => simp_all
      | onWatch =>
        simp only [hsignal] at hraised hc
        rw [← Array.findSome?_toList, hgains, List.findSome?_append, Array.findSome?_toList, hraised] at hc
        exact Option.some.inj hc
    exact (Nat.lt_of_not_le fun hle => h ⟨raised, hraised, hle⟩).le.trans hsame.le
  | none =>
    obtain ⟨es, hgains, hall⟩ := hextends.gains
    unfold Signal.raisedAt? at hraised hc
    cases hsignal : S.signal with
    | never => simp [hsignal] at hc
    | atTime => simp [hsignal] at hraised
    | onWatch =>
      simp only [hsignal] at hraised hc
      rw [← Array.findSome?_toList, hgains, List.findSome?_append, Array.findSome?_toList, hraised] at hc
      obtain ⟨e, he, hwatch⟩ := List.exists_of_findSome?_eq_some hc
      have htime : e.time = c := by
        unfold Entry.watchTime? at hwatch
        split at hwatch
        · exact Option.some.inj hwatch
        · cases hwatch
      exact htime ▸ (hall e he).2.1

include hact

theorem Strides.begun_le {c : Instant} (h : Strides act S w ss w')
    (hc : S.signal.raisedAt? w'.journal = some c) : ∀ s ∈ ss, s.begun.now ≤ c := by
  intro s hs
  obtain ⟨hunraised, hdone, -⟩ := h.forall_taken s hs
  exact le_of_not_raisedBy hunraised ((hdone.extends hact).trans (h.between hact s hs).2) hc

/-- The last stride alone can be in progress then. -/
theorem Strides.over_le {c : Instant} (h : Strides act S w ss w')
    (hc : S.signal.raisedAt? w'.journal = some c) {before : List (Stride σ)} {last : Stride σ}
    (hss : ss = before ++ [last]) : ∀ s ∈ before, s.ended.now ≤ c := by
  intro s hs
  subst hss
  have horder := (List.pairwise_append.1 (h.pairwise hact)).2.2 s hs last (by simp)
  exact horder.trans (h.begun_le hact hc last (by simp))

omit hact

/-! ## Work that heeds the signal -/

/-- The signal is not raised before now. -/
def Quiet (S : Setting σ) (w : World σ) : Prop :=
  ∀ c, S.signal.raisedAt? w.journal = some c → w.now ≤ c

/-- Where strides lead that come to a value: to the end of the last and, if that is an attempt of the
watchdog, with all quiet. -/
def Closed (S : Setting σ) (w : World σ) (ss : List (Stride σ)) (w' : World σ) : Prop :=
  match ss.getLast? with
  | none => w' = w
  | some s => s.ended = w' ∧ ∀ node, s.errand = .watch node → Quiet S w'

theorem Closed.append (h : Closed S w ss v) (hlater : Closed S v later w') :
    Closed S w (ss ++ later) w' := by
  unfold Closed at *
  rw [List.getLast?_append]
  cases hlast : later.getLast? with
  | some s => simpa only [hlast, Option.some_or] using hlater
  | none =>
    rw [hlast] at hlater
    subst hlater
    simpa only [Option.none_or] using h

namespace Work

/-- Whatever the work comes to, it got there in strides. `Q` holds of its value and the errands that led
to it. -/
def Heeds (act : Observation → Work σ α) (S : Setting σ) (Q : β → List Errand → Prop) (x : Work σ β) :
    Prop :=
  ∀ w r w', x.Ends S w r w' → ∃ ss, Strides act S w ss w' ∧
    ∀ b, r = .ok b → Closed S w ss w' ∧ Q b (ss.map Stride.errand)

namespace Heeds

variable {γ : Type} {Q : β → List Errand → Prop} {Q' : γ → List Errand → Prop}

theorem imp {Q' : β → List Errand → Prop} {x : Work σ β} (h : x.Heeds act S Q)
    (hQ : ∀ b es, Q b es → Q' b es) : x.Heeds act S Q' := by
  intro w r w' hends
  obtain ⟨ss, hss, hok⟩ := h w r w' hends
  exact ⟨ss, hss, fun b hr => ⟨(hok b hr).1, hQ b _ (hok b hr).2⟩⟩

protected theorem pure {b : β} (h : Q b []) : (pure b : Work σ β).Heeds act S Q := by
  intro w r w' hends
  obtain ⟨rfl, rfl⟩ := ends_pure_iff.1 hends
  refine ⟨[], .nil, ?_⟩
  rintro _ ⟨⟩
  exact ⟨rfl, h⟩

protected theorem bind {x : Work σ β} {f : β → Work σ γ} (hx : x.Heeds act S Q)
    (hf : ∀ b es, Q b es → (f b).Heeds act S fun c es' => Q' c (es ++ es')) :
    (x >>= f).Heeds act S Q' := by
  intro w r w' hends
  rcases ends_bind_iff.1 hends with ⟨b, v, hfirst, hrest⟩ | ⟨stop, hfirst, rfl⟩
  · obtain ⟨ss, hss, hok⟩ := hx w _ v hfirst
    obtain ⟨hclosed, hq⟩ := hok b rfl
    obtain ⟨later, hlater, hok'⟩ := hf b _ hq v r w' hrest
    refine ⟨ss ++ later, hss.append hlater, fun c hr => ?_⟩
    rw [List.map_append]
    exact ⟨hclosed.append (hok' c hr).1, (hok' c hr).2⟩
  · obtain ⟨ss, hss, -⟩ := hx w _ w' hfirst
    exact ⟨ss, hss, nofun⟩

protected theorem map {x : Work σ β} {f : β → γ} (h : x.Heeds act S fun b => Q' (f b)) :
    (f <$> x).Heeds act S Q' := by
  rw [map_eq_pure_bind]
  exact .bind h fun b es hq => .pure (by rwa [List.append_nil])

end Heeds

/-- Errands item by item: each piece with the value it led to. -/
inductive Pieces (Q : ι → β → List Errand → Prop) : List ι → List β → List Errand → Prop
  | nil : Pieces Q [] [] []
  | cons {i is b bs es es'} (h : Q i b es) (rest : Pieces Q is bs es') :
      Pieces Q (i :: is) (b :: bs) (es ++ es')

theorem Pieces.mem {Q : ι → β → List Errand → Prop} {errand : ι → Errand} {is : List ι} {bs : List β}
    {es : List Errand} (hQ : ∀ i b es, Q i b es → errand i ∈ es) (h : Pieces Q is bs es) :
    ∀ i ∈ is, errand i ∈ es := by
  induction h with
  | nil => simp
  | cons h _ ih =>
    refine List.forall_mem_cons.2 ⟨List.mem_append_left _ (hQ _ _ _ h), fun i hi => ?_⟩
    exact List.mem_append_right _ (ih i hi)

theorem Pieces.last {Q : ι → β → List Errand → Prop} {is : List ι} {bs : List β} {es : List Errand}
    (h : Pieces Q is bs es) (hne : is ≠ []) :
    ∃ i b front back, is.getLast? = some i ∧ bs.getLast? = some b ∧ es = front ++ back ∧ Q i b back := by
  induction h with
  | nil => exact absurd rfl hne
  | @cons i is b bs es es' h rest ih =>
    cases rest with
    | nil => exact ⟨i, b, [], es, rfl, rfl, by simp, h⟩
    | cons h' rest' =>
      obtain ⟨j, c, front, back, hj, hc, hes, hq⟩ := ih (by simp)
      exact ⟨j, c, es ++ front, back, by rwa [List.getLast?_cons_cons], by rwa [List.getLast?_cons_cons],
        by rw [hes, List.append_assoc], hq⟩

protected theorem Heeds.mapM {f : ι → Work σ β} {Q : ι → β → List Errand → Prop}
    (h : ∀ i, (f i).Heeds act S (Q i)) (is : List ι) : (is.mapM f).Heeds act S (Pieces Q is) := by
  induction is with
  | nil =>
    rw [List.mapM_nil]
    exact .pure .nil
  | cons i is ih =>
    rw [List.mapM_cons]
    refine .bind (h i) fun b es hq => .bind ih fun bs es' hpieces => .pure ?_
    rw [List.append_nil]
    exact .cons hq hpieces

/-- After a look at the signal, what is done with a node is a stride. -/
protected theorem Heeds.turn {o : Observation} (hact : (act o).Runs S fun _ => True) :
    (checkpoint >>= fun _ => act o).Heeds act S fun _ es => es = [.turn o] := by
  intro w r w' hends
  rcases ends_bind_iff.1 hends with ⟨⟨⟩, w₁, hcheck, hdone⟩ | ⟨stop, hcheck, rfl⟩
  · obtain ⟨⟨-, hr⟩ | ⟨hraised, -⟩, rfl⟩ := ends_checkpoint_iff.1 hcheck
    · cases hr
    obtain ⟨log, hgains, -⟩ := (hdone.extends hact).gains
    let stride : Stride σ := ⟨.turn o, w₁, w', log⟩
    have htaken : stride.Taken act S := ⟨hraised, .turn hdone, hgains⟩
    exact ⟨[stride], .cons htaken .nil, fun _ _ => ⟨⟨rfl, nofun⟩, rfl⟩⟩
  · obtain ⟨-, rfl⟩ := ends_checkpoint_iff.1 hcheck
    exact ⟨[], .nil, nofun⟩

end Work
end Rollout
