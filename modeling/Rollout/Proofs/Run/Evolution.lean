import Rollout.Proofs.Retry.Rounds

/-!
# What becomes of the world

Nothing but calls changes the world around a run, and every call is in the journal. So the journal tells
what becomes of the world: `Environment.Evolves` replays it, and `Work.Accounted` says of a piece of work
that this replay is all it does to the world. What calls do not touch is the same before and after.
-/

namespace Rollout

variable {σ α β : Type}

namespace Environment

/-- What comes of a call if nothing else happens until it is answered. -/
def respond (env : Environment σ) (s : σ) (t : Instant) (c : Call) : σ × c.Result :=
  (env.serve s t c).finish (env.serve s t c).begun

/-- The calls and answers, one after the other, lead from one state of the world to another. A call
without its answer was abandoned. -/
inductive Evolves (env : Environment σ) : σ → List Entry → σ → Prop
  | done {s} : Evolves env s [] s
  | abandoned {s s' t c es} (hrest : Evolves env (env.serve s t c).begun es s') :
      Evolves env s (.sent t c :: es) s'
  | answered {s s₁ s' t t' c a es} (hresponse : env.respond s t c = (s₁, a))
      (hrest : Evolves env s₁ es s') : Evolves env s (.sent t c :: .answered t' c a :: es) s'

variable {env : Environment σ} {s s₁ s' : σ} {es es' : List Entry}

namespace Evolves

theorem append (h : env.Evolves s es s₁) (h' : env.Evolves s₁ es' s') :
    env.Evolves s (es ++ es') s' := by
  induction h with
  | done => exact h'
  | abandoned _ ih => exact .abandoned (ih h')
  | answered hresponse _ ih => exact .answered hresponse (ih h')

/-- An answer comes right after its call, and from the state the world is in then. -/
theorem split_answered {before after : List Entry} {t : Instant} {c : Call} {a : c.Result}
    (h : env.Evolves s (before ++ .answered t c a :: after) s') :
    ∃ front t₀ s₀ s₁, before = front ++ [.sent t₀ c] ∧ env.Evolves s front s₀ ∧
      env.respond s₀ t₀ c = (s₁, a) ∧ env.Evolves s₁ after s' := by
  generalize hes : before ++ .answered t c a :: after = es at h
  induction h generalizing before with
  | done => simp at hes
  | abandoned _ ih =>
    cases before with
    | nil => cases hes
    | cons e before =>
      obtain ⟨he, htail⟩ := List.cons.inj hes
      obtain ⟨front, t₁, s₀, s₁, rfl, hfront, hresponse, hafter⟩ := ih htail
      exact ⟨_ :: front, t₁, s₀, s₁, by rw [he]; rfl, .abandoned hfront, hresponse, hafter⟩
  | answered hresponse hrest ih =>
    cases before with
    | nil => cases hes
    | cons e before =>
      obtain ⟨he, htail⟩ := List.cons.inj hes
      cases before with
      | nil =>
        cases htail
        exact ⟨[], _, _, _, by rw [he]; rfl, .done, hresponse, hrest⟩
      | cons e' before =>
        obtain ⟨he', htail⟩ := List.cons.inj htail
        obtain ⟨front, t₂, s₀, s₂, rfl, hfront, hresponse', hafter⟩ := ih htail
        exact ⟨_ :: _ :: front, t₂, s₀, s₂, by rw [he, he']; rfl, .answered hresponse hfront,
          hresponse', hafter⟩

theorem of_exchange {t t' : Instant} {c : Call} {a : c.Result}
    (h : env.Evolves s (.sent t c :: .answered t' c a :: es) s') :
    ∃ s₁, env.respond s t c = (s₁, a) ∧ env.Evolves s₁ es s' := by
  cases h with
  | abandoned hrest => cases hrest
  | answered hresponse hrest => exact ⟨_, hresponse, hrest⟩

end Evolves

/-- Calls with `P` leave alone what `f` shows of the world. -/
def Keeps (env : Environment σ) (P : Call → Prop) (f : σ → β) : Prop :=
  ∀ s t c, P c → f (env.serve s t c).begun = f s ∧ ∀ s', f ((env.serve s t c).finish s').1 = f s'

namespace Keeps

variable {P Q : Call → Prop} {f : σ → β}

theorem mono (h : env.Keeps Q f) (hPQ : ∀ c, P c → Q c) : env.Keeps P f :=
  fun s t c hc => h s t c (hPQ c hc)

theorem respond (h : env.Keeps P f) {t : Instant} {c : Call} {a : c.Result} (hc : P c)
    (hresponse : env.respond s t c = (s₁, a)) : f s₁ = f s := by
  have hkept : f (env.respond s t c).1 = f s := ((h s t c hc).2 _).trans (h s t c hc).1
  rwa [hresponse] at hkept

theorem evolves (h : env.Keeps P f) (hes : env.Evolves s es s') (hcalls : ∀ e ∈ es, P e.call) :
    f s' = f s := by
  induction hes with
  | done => rfl
  | @abandoned s s' t c es _ ih =>
    have hc : P c := hcalls (.sent t c) (by simp)
    exact (ih fun e he => hcalls e (by simp [he])).trans (h s t c hc).1
  | @answered s s₁ s' t t' c a es hresponse _ ih =>
    have hc : P c := hcalls (.sent t c) (by simp)
    exact (ih fun e he => hcalls e (by simp [he])).trans (h.respond hc hresponse)

end Keeps
end Environment

/-- The journal tells what has become of the world from `w` to `w'`. -/
def World.Evolves (w : World σ) (env : Environment σ) (w' : World σ) : Prop :=
  ∃ es, w.Gains w' es ∧ env.Evolves w.state es w'.state

namespace World

variable {env : Environment σ} {w w₁ w' : World σ}

theorem Evolves.trans (h : w.Evolves env w₁) (h' : w₁.Evolves env w') : w.Evolves env w' := by
  obtain ⟨es, hes, hstate⟩ := h
  obtain ⟨es', hes', hstate'⟩ := h'
  exact ⟨es ++ es', hes.trans hes', hstate.append hstate'⟩

theorem Evolves.of_eq (hstate : w'.state = w.state) (hjournal : w'.journal = w.journal) :
    w.Evolves env w' :=
  ⟨[], (Gains.refl w).of_journal_eq hjournal, hstate ▸ .done⟩

theorem Evolves.of_gains (h : w.Evolves env w') {es : List Entry} (hes : w.Gains w' es) :
    env.Evolves w.state es w'.state := by
  obtain ⟨es', hes', hstate⟩ := h
  obtain rfl := hes.unique hes'
  exact hstate

@[simp] theorem expired_state (w : World σ) (S : Setting σ) : (w.expired S).state = w.state := by
  cases h : S.limit with
  | none => rw [expired_of_limit_none w h]
  | some limit => rw [expired_of_limit w h]; rfl

theorem evolves_asked (w : World σ) (env : Environment σ) (c : Call) : w.Evolves env (w.asked env c) :=
  ⟨_, w.gains_asked env c, .abandoned .done⟩

theorem evolves_answer {c : Call} {a : c.Result} (h : w.answer? env c = some (a, w')) :
    w.Evolves env w' := by
  refine ⟨_, gains_answer h, ?_⟩
  obtain ⟨d, -, hd⟩ := Option.map_eq_some_iff.1 h
  obtain ⟨rfl, rfl⟩ := Prod.mk.inj hd
  exact .answered rfl .done

end World

namespace Work

variable {S : Setting σ} {w w' : World σ}

/-- In every setting the journal tells all that the work does to the world. -/
def Accounted (x : Work σ α) : Prop :=
  ∀ S w r w', x.Ends S w r w' → w.Evolves S.environment w'

namespace Accounted

protected theorem pure (a : α) : (pure a : Work σ α).Accounted := by
  intro S w r w' h
  obtain ⟨-, rfl⟩ := ends_pure_iff.1 h
  exact .of_eq rfl rfl

protected theorem fail (e : Error) : (fail e : Work σ α).Accounted := by
  intro S w r w' h
  obtain ⟨-, rfl⟩ := ends_fail_iff.1 h
  exact .of_eq rfl rfl

protected theorem ofExcept (x : Except Error α) : (ofExcept x : Work σ α).Accounted := by
  intro S w r w' h
  obtain ⟨-, rfl⟩ := ends_ofExcept_iff.1 h
  exact .of_eq rfl rfl

protected theorem bind {x : Work σ α} {f : α → Work σ β} (hx : x.Accounted)
    (hf : ∀ a, (f a).Accounted) : (x >>= f).Accounted := by
  intro S w r w' h
  rcases ends_bind_iff.1 h with ⟨a, w₁, hfirst, hrest⟩ | ⟨e, hfirst, -⟩
  · exact (hx _ _ _ _ hfirst).trans (hf a _ _ _ _ hrest)
  · exact hx _ _ _ _ hfirst

protected theorem clock : (clock : Work σ Instant).Accounted := by
  intro S w r w' h
  obtain ⟨-, rfl⟩ := h.unique ends_clock
  exact .of_eq rfl rfl

protected theorem raisedAt? : (raisedAt? : Work σ (Option Instant)).Accounted := by
  intro S w r w' h
  have hraised : raisedAt?.Ends S w (.ok (S.signal.raisedAt? w.journal)) w := rfl
  obtain ⟨-, rfl⟩ := h.unique hraised
  exact .of_eq rfl rfl

protected theorem favours : (favours : Work σ (ℕ → Branch)).Accounted := by
  intro S w r w' h
  obtain ⟨-, rfl⟩ := h.unique ends_favours
  exact .of_eq rfl rfl

protected theorem cancelled : (cancelled : Work σ Bool).Accounted := by
  intro S w r w' h
  obtain ⟨-, rfl⟩ := ends_cancelled_iff.1 h
  exact .of_eq rfl rfl

protected theorem checkpoint : (checkpoint : Work σ Unit).Accounted := by
  intro S w r w' h
  obtain ⟨-, rfl⟩ := ends_checkpoint_iff.1 h
  exact .of_eq rfl rfl

protected theorem waitUntil (time : Option Instant) : (waitUntil time : Work σ Unit).Accounted := by
  intro S w r w' h
  rcases ends_waitUntil_iff.1 h with ⟨t, -, -, -, rfl⟩ | ⟨-, -, rfl⟩
  · exact .of_eq rfl rfl
  · exact .of_eq (by simp) (by simp)

protected theorem call {c : Call} : (call c : Work σ _).Accounted := by
  intro S w r w' h
  rcases ends_call_iff.1 h with ⟨a, ha, -, -⟩ | ⟨-, -, rfl⟩
  · exact World.evolves_answer ha
  · exact (w.evolves_asked _ c).trans (.of_eq (by simp) (by simp))

protected theorem connect {node : Node} : (connect node : Work σ _).Accounted := by
  intro S w r w' h
  rcases ends_connect_iff.1 h with ⟨a, ha, -, -⟩ | ⟨-, -, rfl⟩
  · rcases World.connection_cases ha with ⟨e, -, hanswer⟩ | ⟨channel, w₁, -, hanswer, rfl⟩
    · exact World.evolves_answer hanswer
    · exact (World.evolves_answer hanswer).trans (.of_eq rfl rfl)
  · exact (w.evolves_asked _ (.connect node)).trans (.of_eq (by simp) (by simp))

protected theorem request {client : Client} {q : Request} : (request client q : Work σ _).Accounted :=
  .call

protected theorem display {text : String} : (display text : Work σ Unit).Accounted :=
  .bind .call fun _ => .pure ()

protected theorem ask {question : String} : (ask question : Work σ Bool).Accounted :=
  .bind .call fun a => .ofExcept a

protected theorem within (d : Duration) {x : Work σ α} (hx : x.Accounted) :
    (within d x).Accounted := by
  intro S w r w' h
  rcases ends_within_iff.1 h with ⟨a, h, -⟩ | ⟨h, -⟩ | ⟨e, h, -⟩
  · exact hx (limited S w d) _ _ _ h
  · exact hx (limited S w d) _ _ _ h
  · exact hx (limited S w d) _ _ _ h

protected theorem pause (d : Duration) : (pause d : Work σ Bool).Accounted := by
  refine .bind .clock fun now => .bind .raisedAt? fun raised => ?_
  cases raised with
  | none => exact .bind (.waitUntil _) fun _ => .pure false
  | some time =>
    dsimp only
    split
    · exact .bind (.waitUntil _) fun _ => .pure true
    · exact .bind (.waitUntil _) fun _ => .pure false

protected theorem untilSome {x : Work σ (Option α)} (hx : x.Accounted) : (untilSome x).Accounted := by
  intro S w r w' h
  obtain ⟨w₁, hchain, hlast⟩ := ends_untilSome_iff.1 h
  induction hchain using Relation.ReflTransGen.head_induction_on with
  | refl => exact hx _ _ _ _ hlast
  | head hround hrest ih =>
    exact (hx _ _ _ _ hround).trans (ih (ends_untilSome_iff.2 ⟨_, hrest, hlast⟩))

variable {ε : Type} {b : Budget}

protected theorem attempt {x : Work σ (Attempt ε α)} (hx : x.Accounted) : (b.attempt x).Accounted := by
  unfold Budget.attempt
  split
  · exact hx
  · refine .bind (.within _ hx) fun outcome => ?_
    cases outcome with
    | none => exact .pure _
    | some outcome => exact .pure outcome

protected theorem round {x : Work σ (Attempt ε α)} {started : Instant} (hx : x.Accounted) :
    (b.round x started).Accounted := by
  refine .bind .cancelled fun raised => ?_
  split
  · exact .pure _
  refine .bind (.attempt hx) fun outcome => ?_
  cases outcome with
  | success value => exact .pure _
  | fatal error => exact .pure _
  | retry reason =>
    refine .bind .clock fun now => ?_
    dsimp only
    split
    · exact .pure _
    refine .bind (.pause _) fun raised => ?_
    split <;> exact .pure _

protected theorem retryOrFail {x : Work σ (Attempt Error α)} (hx : x.Accounted)
    (exhausted : String → Error) : (retryOrFail b x exhausted).Accounted :=
  .bind (.bind .clock fun _ => .untilSome (.round hx)) fun _ => .ofExcept _

end Accounted

/-- What the calls of a piece of work leave alone is the same when it has ended. -/
theorem Ends.keeps {x : Work σ α} {r : Except Stop α} {P : Call → Prop} {f : σ → β}
    (h : x.Ends S w r w') (haccounted : x.Accounted) (hcalls : w.Extends P w')
    (hkeeps : S.environment.Keeps P f) : f w'.state = f w.state := by
  obtain ⟨es, hes, hstate⟩ := haccounted _ _ _ _ h
  exact hkeeps.evolves hstate fun e he => (hcalls.forall_mem hes e he).1

end Work
end Rollout
