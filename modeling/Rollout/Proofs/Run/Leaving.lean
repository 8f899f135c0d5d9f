import Rollout.Proofs.Run.Growth

/-!
# What work leaves in the journal

`Work.Leaves` ties what a piece of work adds to the journal to what it comes to. Work put together leaves
what its parts leave, one after the other, and a call leaves itself and its answer or, when no answer
comes, itself alone.
-/

namespace Rollout

def exchange (c : Call) (t t' : Instant) (a : c.Result) : List Entry :=
  [.sent t c, .answered t' c a]

/-- The connection that a client comes from. -/
def opened (client : Client) (t t' : Instant) : List Entry :=
  exchange (.connect client.node) t t' (.ok client.channel)

/-- What a call leaves that the run cannot do without, and what it comes to. -/
inductive Demanded (c : Call) (toError : c.Failure → Error) : List Entry → Except Stop c.Reply → Prop
  | silent {t} : Demanded c toError [.sent t c] (.error .overdue)
  | refused {t t' e} : Demanded c toError (exchange c t t' (.error e)) (.error (.error (toError e)))
  | answered {t t' a} : Demanded c toError (exchange c t t' (.ok a)) (.ok a)

/-- What a connection leaves that the run cannot do without, and what it comes to. -/
inductive Connects (node : Node) : List Entry → Except Stop Client → Prop
  | failed {es stop} (h : Demanded (.connect node) id es (.error stop)) : Connects node es (.error stop)
  | opened {client t t'} (h : client.node = node) : Connects node (opened client t t') (.ok client)

@[simp] theorem mem_exchange {c : Call} {t t' : Instant} {a : c.Result} {e : Entry} :
    e ∈ exchange c t t' a ↔ e = .sent t c ∨ e = .answered t' c a := by
  simp [exchange]

theorem call_of_mem_exchange {c : Call} {t t' : Instant} {a : c.Result} {e : Entry}
    (h : e ∈ exchange c t t' a) : e.call = c := by
  rcases mem_exchange.1 h with rfl | rfl <;> rfl

theorem call_of_mem_opened {client : Client} {t t' : Instant} {e : Entry}
    (h : e ∈ opened client t t') : e.call = .connect client.node :=
  call_of_mem_exchange h

theorem Demanded.head {c : Call} {toError : c.Failure → Error} {es : List Entry}
    {r : Except Stop c.Reply} (h : Demanded c toError es r) :
    ∃ t rest, es = .sent t c :: rest ∧ ∀ e ∈ rest, ∃ t' a, e = .answered t' c a := by
  cases h with
  | @silent t => exact ⟨t, [], rfl, by simp⟩
  | @refused t t' e => exact ⟨t, _, rfl, by simp⟩
  | @answered t t' a => exact ⟨t, _, rfl, by simp⟩

theorem Demanded.call_of_mem {c : Call} {toError : c.Failure → Error} {es : List Entry}
    {r : Except Stop c.Reply} (h : Demanded c toError es r) : ∀ e ∈ es, e.call = c := by
  obtain ⟨t, rest, rfl, hrest⟩ := h.head
  intro e he
  rcases List.mem_cons.1 he with rfl | he
  · rfl
  · obtain ⟨t', a, rfl⟩ := hrest e he
    rfl

theorem Demanded.eq_of_mem_answered {c : Call} {toError : c.Failure → Error} {es : List Entry}
    {r : Except Stop c.Reply} (h : Demanded c toError es r) {t : Instant} {a : c.Reply}
    (he : .answered t c (.ok a) ∈ es) : r = .ok a := by
  cases h with
  | silent => simp at he
  | refused => simp at he
  | answered =>
    rcases mem_exchange.1 he with he | he
    · cases he
    · cases he
      rfl

theorem Demanded.ok_cases {c : Call} {toError : c.Failure → Error} {es : List Entry} {a : c.Reply}
    (h : Demanded c toError es (.ok a)) : ∃ t t', es = exchange c t t' (.ok a) := by
  cases h
  exact ⟨_, _, rfl⟩

theorem countP_exchange_le_one {c : Call} {t t' : Instant} {a : c.Result} {p : Entry → Bool}
    (hp : p (.answered t' c a) = false) : (exchange c t t' a).countP p ≤ 1 := by
  have hone : (exchange c t t' a).countP p = if p (.sent t c) = true then 1 else 0 := by
    simp [exchange, List.countP_cons, hp]
  rw [hone]
  split <;> omega

theorem Demanded.countP_le_one {c : Call} {toError : c.Failure → Error} {es : List Entry}
    {r : Except Stop c.Reply} {p : Entry → Bool} (h : Demanded c toError es r)
    (hp : ∀ t a, p (.answered t c a) = false) : es.countP p ≤ 1 := by
  cases h with
  | silent => exact List.countP_le_length
  | refused => exact countP_exchange_le_one (hp _ _)
  | answered => exact countP_exchange_le_one (hp _ _)

theorem Connects.ok_cases {node : Node} {es : List Entry} {client : Client}
    (h : Connects node es (.ok client)) :
    ∃ t t', client.node = node ∧ es = Rollout.opened client t t' := by
  cases h with
  | @opened client t t' h => exact ⟨t, t', h, rfl⟩

theorem Connects.call_of_mem {node : Node} {es : List Entry} {r : Except Stop Client}
    (h : Connects node es r) : ∀ e ∈ es, e.call = .connect node := by
  cases h with
  | failed h => exact h.call_of_mem
  | opened h =>
    intro e he
    rw [call_of_mem_opened he, h]

/-- Where only one entry is of a kind, an entry of that kind is that one. -/
theorem split_unique {es before after front back : List Entry} {e e' : Entry} {P : Entry → Prop}
    (hes : es = before ++ e :: after) (hes' : es = front ++ e' :: back) (he' : P e')
    (hbefore : ∀ x ∈ before, ¬ P x) (hafter : ∀ x ∈ after, ¬ P x) :
    front = before ∧ e' = e ∧ back = after := by
  rw [hes] at hes'
  rcases append_eq_append_cons_cases hes' with ⟨mid, rfl, -⟩ | ⟨mid, rfl, hmid⟩
  · exact absurd he' (hbefore e' (by simp))
  · cases mid with
    | nil =>
      obtain ⟨rfl, rfl⟩ := List.cons.inj hmid
      simp
    | cons x mid =>
      obtain ⟨-, rfl⟩ := List.cons.inj hmid
      exact absurd he' (hafter e' (by simp))

section

variable {c c' : Call} {toError : c.Failure → Error} {r : Except Stop c.Reply} {P : Call → Prop}
  {front es before after : List Entry} {t : Instant}

/-- What is sent at the end of a journal is what is demanded there, if nothing before it is of the
kind. -/
theorem Demanded.eq_of_sent (h : Demanded c toError es r) (hfront : ∀ x ∈ front, ¬ P x.call)
    (hc' : P c') (hes : front ++ es = before ++ .sent t c' :: after) : before = front ∧ c' = c := by
  obtain ⟨t₀, rest, rfl, hrest⟩ := h.head
  have hlast : ∀ x ∈ rest, ¬ (P x.call ∧ ∃ t c, x = .sent t c) := by
    rintro x hx ⟨-, t, c, rfl⟩
    obtain ⟨t', a, h⟩ := hrest _ hx
    cases h
  obtain ⟨hbefore, he, -⟩ := split_unique (P := fun x => P x.call ∧ ∃ t c, x = .sent t c) hes.symm rfl
    ⟨hc', t, c', rfl⟩ (fun x hx hp => hfront x hx hp.1) hlast
  cases he
  exact ⟨hbefore, rfl⟩

/-- A favourable answer there is the answer to what is demanded, and the last entry. -/
theorem Demanded.of_answered {a : c'.Reply} (h : Demanded c toError es r)
    (hfront : ∀ x ∈ front, ¬ P x.call) (hc' : P c')
    (hes : front ++ es = before ++ .answered t c' (.ok a) :: after) :
    (∃ t', before = front ++ [.sent t' c']) ∧ after = [] ∧ c' = c ∧ ∃ b, r = .ok b := by
  rcases append_eq_append_cons_cases hes with ⟨mid, rfl, -⟩ | ⟨mid, rfl, hmid⟩
  · exact absurd hc' (hfront (.answered t c' (.ok a)) (by simp))
  have hmem : .answered t c' (.ok a) ∈ es := by simp [hmid]
  obtain rfl : c' = c := h.call_of_mem _ hmem
  have hr := h.eq_of_mem_answered hmem
  subst hr
  obtain ⟨t₀, t₁, rfl⟩ := h.ok_cases
  have hexchange : exchange c' t₀ t₁ (.ok a) = [.sent t₀ c'] ++ .answered t₁ c' (.ok a) :: [] := rfl
  obtain ⟨rfl, -, rfl⟩ := split_unique (P := fun x => ∃ t a, x = .answered t c' a) hexchange hmid
    ⟨t, _, rfl⟩ (by simp) (by simp)
  exact ⟨⟨t₀, rfl⟩, rfl, rfl, a, rfl⟩

end

theorem split_middle {xs ys zs before after : List Entry} {e : Entry}
    (h : xs ++ ys ++ zs = before ++ e :: after) (hxs : e ∉ xs) (hzs : e ∉ zs) :
    ∃ before' after', before = xs ++ before' ∧ ys = before' ++ e :: after' ∧ after = after' ++ zs := by
  rcases append_eq_append_cons_cases h with ⟨mid, hmid, rfl⟩ | ⟨mid, -, rfl⟩
  · rcases append_eq_append_cons_cases hmid with ⟨mid', rfl, -⟩ | ⟨mid', rfl, rfl⟩
    · exact absurd (by simp) hxs
    · exact ⟨mid', mid, rfl, rfl, rfl⟩
  · exact absurd (by simp) hzs

namespace Work

variable {σ α β : Type} {S : Setting σ}

/-- Whatever the work comes to, `Q` holds of what it leaves in the journal and of the result. -/
def Leaves (S : Setting σ) (Q : List Entry → Except Stop α → Prop) (x : Work σ α) : Prop :=
  ∀ w r w', x.Ends S w r w' → ∃ es, w.Gains w' es ∧ Q es r

namespace Leaves

variable {Q : List Entry → Except Stop α → Prop} {Q' : List Entry → Except Stop β → Prop}

theorem imp {Q' : List Entry → Except Stop α → Prop} {x : Work σ α} (h : x.Leaves S Q)
    (hQ : ∀ es r, Q es r → Q' es r) : x.Leaves S Q' := by
  intro w r w' hends
  obtain ⟨es, hes, hq⟩ := h w r w' hends
  exact ⟨es, hes, hQ es r hq⟩

protected theorem pure {a : α} (h : Q [] (.ok a)) : (pure a : Work σ α).Leaves S Q := by
  intro w r w' hends
  obtain ⟨rfl, rfl⟩ := ends_pure_iff.1 hends
  exact ⟨[], .refl w', h⟩

protected theorem fail {e : Error} (h : Q [] (.error (.error e))) :
    (fail e : Work σ α).Leaves S Q := by
  intro w r w' hends
  obtain ⟨rfl, rfl⟩ := ends_fail_iff.1 hends
  exact ⟨[], .refl w', h⟩

protected theorem bind {x : Work σ α} {f : α → Work σ β} (hx : x.Leaves S Q)
    (herror : ∀ es stop, Q es (.error stop) → Q' es (.error stop))
    (hok : ∀ es a, Q es (.ok a) → (f a).Leaves S fun es' r => Q' (es ++ es') r) :
    (x >>= f).Leaves S Q' := by
  intro w r w' hends
  rcases ends_bind_iff.1 hends with ⟨a, w₁, hfirst, hrest⟩ | ⟨stop, hfirst, rfl⟩
  · obtain ⟨es, hes, hq⟩ := hx w _ w₁ hfirst
    obtain ⟨es', hes', hq'⟩ := hok es a hq w₁ r w' hrest
    exact ⟨es ++ es', hes.trans hes', hq'⟩
  · obtain ⟨es, hes, hq⟩ := hx w _ w' hfirst
    exact ⟨es, hes, herror es stop hq⟩

protected theorem demand {c : Call} {toError : c.Failure → Error} {f : c.Result → Work σ c.Reply}
    (herror : ∀ e, f (.error e) = fail (toError e)) (hok : ∀ a, f (.ok a) = pure a) :
    (call c >>= f).Leaves S (Demanded c toError) := by
  intro w r w' hends
  rcases gains_of_ends_call_bind hends with ⟨e | a, w₁, hcall, hf⟩ | ⟨hcall, rfl⟩
  · rw [herror] at hf
    obtain ⟨rfl, rfl⟩ := ends_fail_iff.1 hf
    exact ⟨_, hcall, .refused⟩
  · rw [hok] at hf
    obtain ⟨rfl, rfl⟩ := ends_pure_iff.1 hf
    exact ⟨_, hcall, .answered⟩
  · exact ⟨_, hcall, .silent⟩

protected theorem ask {question : String} :
    (ask question : Work σ Bool).Leaves S (Demanded (.ask question) id) :=
  .demand (fun _ => rfl) fun _ => rfl

protected theorem display {text : String} :
    (display text : Work σ Unit).Leaves S (Demanded (.display text) Empty.elim) :=
  .demand (fun e => e.elim) fun _ => rfl

protected theorem connect {node : Node} :
    (connect node >>= ofExcept : Work σ Client).Leaves S (Connects node) := by
  intro w r w' hends
  rcases gains_of_ends_connect_bind hends with ⟨e, w₁, hconnect, hf⟩ |
    ⟨client, w₁, hclient, hconnect, hf⟩ | ⟨hconnect, rfl⟩
  · obtain ⟨rfl, rfl⟩ := ends_ofExcept_iff.1 hf
    exact ⟨_, hconnect, .failed .refused⟩
  · obtain ⟨rfl, rfl⟩ := ends_ofExcept_iff.1 hf
    subst hclient
    exact ⟨_, hconnect, .opened rfl⟩
  · exact ⟨_, hconnect, .failed .silent⟩

end Leaves
end Work
end Rollout
