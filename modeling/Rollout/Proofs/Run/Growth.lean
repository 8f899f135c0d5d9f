import Rollout.Proofs.Run.Ending

/-!
# What work adds

Work only adds to the journal, and the clock only moves forward. `Work.Runs` says of a piece of work that it
ends, whatever is answered, and which calls it makes on the way; every way of putting work together keeps
this.
-/

namespace Rollout

namespace Entry

def time : Entry → Instant
  | sent time _ => time
  | answered time _ _ => time

def call : Entry → Call
  | sent _ call => call
  | answered _ call _ => call

end Entry

/-- The node a call is made to; the operator is none. -/
def Call.node? : Call → Option Node
  | connect node => some node
  | render node => some node
  | request client _ => some client.node
  | display _ => none
  | ask _ => none

variable {σ α β : Type}

/-- A place in a list put together from two is a place in one of them. -/
theorem append_eq_append_cons_cases {xs ys before after : List α} {x : α}
    (h : xs ++ ys = before ++ x :: after) :
    (∃ mid, xs = before ++ x :: mid ∧ after = mid ++ ys) ∨
      ∃ mid, before = xs ++ mid ∧ ys = mid ++ x :: after := by
  rcases List.append_eq_append_iff.1 h with ⟨mid, hbefore, hys⟩ | ⟨mid, hxs, hafter⟩
  · exact .inr ⟨mid, hbefore, hys⟩
  · cases mid with
    | nil =>
      refine .inr ⟨[], ?_, hafter.symm⟩
      simp [hxs]
    | cons y mid =>
      obtain ⟨rfl, rfl⟩ := List.cons.inj hafter
      exact .inl ⟨mid, hxs, rfl⟩

namespace World

/-- `es` is what the journal has gained from `w` to `w'`. -/
def Gains (w w' : World σ) (es : List Entry) : Prop :=
  w'.journal.toList = w.journal.toList ++ es

theorem Gains.refl (w : World σ) : w.Gains w [] := (List.append_nil _).symm

theorem Gains.trans {w w₁ w₂ : World σ} {es es' : List Entry} (h : w.Gains w₁ es)
    (h' : w₁.Gains w₂ es') : w.Gains w₂ (es ++ es') := by
  unfold Gains at *
  rw [h', h, List.append_assoc]

theorem Gains.unique {w w' : World σ} {es es' : List Entry} (h : w.Gains w' es)
    (h' : w.Gains w' es') : es = es' :=
  List.append_cancel_left (h.symm.trans h')

theorem Gains.of_journal_eq {w w₁ w₂ : World σ} {es : List Entry} (h : w.Gains w₁ es)
    (hj : w₂.journal = w₁.journal) : w.Gains w₂ es := by
  unfold Gains at *
  rw [hj, h]

theorem gains_asked (w : World σ) (env : Environment σ) (c : Call) :
    w.Gains (w.asked env c) [.sent w.now c] :=
  Array.toList_push

theorem gains_answer {w w' : World σ} {env : Environment σ} {c : Call} {a : c.Result}
    (h : w.answer? env c = some (a, w')) :
    w.Gains w' [.sent w.now c, .answered w'.now c a] := by
  obtain ⟨d, -, hd⟩ := Option.map_eq_some_iff.1 h
  obtain ⟨rfl, rfl⟩ := Prod.mk.inj hd
  simp [Gains]

theorem now_le_answer {w w' : World σ} {env : Environment σ} {c : Call} {a : c.Result}
    (h : w.answer? env c = some (a, w')) : w.now ≤ w'.now := by
  obtain ⟨d, -, hd⟩ := Option.map_eq_some_iff.1 h
  rw [← (Prod.mk.inj hd).2]
  exact Nat.le_add_right _ _

/-- A connection shows in the journal as the answer that made it. -/
theorem connection_cases {w w' : World σ} {env : Environment σ} {node : Node}
    {a : Except Error Client} (h : w.connection? env node = some (a, w')) :
    (∃ e, a = .error e ∧ w.answer? env (.connect node) = some (.error e, w')) ∨
      ∃ channel w₁, a = .ok ⟨node, w.connections, channel⟩ ∧
        w.answer? env (.connect node) = some (.ok channel, w₁) ∧
        w' = { w₁ with connections := w.connections + 1 } := by
  obtain ⟨⟨answer, w₁⟩, hanswer, ha⟩ := Option.map_eq_some_iff.1 h
  cases answer with
  | error e =>
    obtain ⟨rfl, rfl⟩ := Prod.mk.inj ha
    exact .inl ⟨e, rfl, hanswer⟩
  | ok channel =>
    obtain ⟨rfl, rfl⟩ := Prod.mk.inj ha
    exact .inr ⟨channel, w₁, rfl, hanswer, rfl⟩

theorem now_le_connection {w w' : World σ} {env : Environment σ} {node : Node}
    {a : Except Error Client} (h : w.connection? env node = some (a, w')) : w.now ≤ w'.now := by
  rcases connection_cases h with ⟨e, -, hanswer⟩ | ⟨channel, w₁, -, hanswer, rfl⟩
  · exact now_le_answer hanswer
  · have hle : w.now ≤ w₁.now := now_le_answer hanswer
    exact hle

/-- From `w` to `w'` the clock did not go back, and what the journal gained are calls with `P`, and
answers to such calls, made in between. -/
structure Extends (P : Call → Prop) (w w' : World σ) : Prop where
  now_le : w.now ≤ w'.now
  gains : ∃ es, w.Gains w' es ∧ ∀ e ∈ es, P e.call ∧ w.now ≤ e.time ∧ e.time ≤ w'.now

namespace Extends

variable {P Q : Call → Prop} {w w₁ w₂ : World σ}

theorem refl (w : World σ) : w.Extends P w :=
  ⟨le_rfl, [], .refl w, by simp⟩

theorem trans (h : w.Extends P w₁) (h' : w₁.Extends P w₂) : w.Extends P w₂ := by
  obtain ⟨es, hes, hall⟩ := h.gains
  obtain ⟨es', hes', hall'⟩ := h'.gains
  refine ⟨h.now_le.trans h'.now_le, es ++ es', hes.trans hes', ?_⟩
  intro e he
  rcases List.mem_append.1 he with he | he
  · obtain ⟨hp, hlo, hhi⟩ := hall e he
    exact ⟨hp, hlo, hhi.trans h'.now_le⟩
  · obtain ⟨hp, hlo, hhi⟩ := hall' e he
    exact ⟨hp, h.now_le.trans hlo, hhi⟩

theorem mono (h : w.Extends P w₁) (hPQ : ∀ c, P c → Q c) : w.Extends Q w₁ := by
  obtain ⟨es, hes, hall⟩ := h.gains
  exact ⟨h.now_le, es, hes, fun e he => ⟨hPQ _ (hall e he).1, (hall e he).2⟩⟩

theorem of_journal_eq (hnow : w.now ≤ w₁.now) (hj : w₁.journal = w.journal) : w.Extends P w₁ :=
  ⟨hnow, [], (Gains.refl w).of_journal_eq hj, by simp⟩

theorem advance (w : World σ) (t : Instant) : w.Extends P (w.advance t) :=
  of_journal_eq (le_max_left _ _) rfl

theorem expired (w : World σ) (S : Setting σ) : w.Extends P (w.expired S) :=
  of_journal_eq (w.le_now_expired S) (w.expired_journal S)

theorem asked {c : Call} (w : World σ) (env : Environment σ) (hc : P c) :
    w.Extends P (w.asked env c) :=
  ⟨le_rfl, _, w.gains_asked env c, by simp [Entry.call, Entry.time, World.asked, hc]⟩

theorem answer {env : Environment σ} {c : Call} {a : c.Result} (hc : P c)
    (h : w.answer? env c = some (a, w₁)) : w.Extends P w₁ := by
  have hle := now_le_answer h
  exact ⟨hle, _, gains_answer h, by simp [Entry.call, Entry.time, hc, hle]⟩

theorem forall_mem {es : List Entry} (h : w.Extends P w₁) (hes : w.Gains w₁ es) :
    ∀ e ∈ es, P e.call ∧ w.now ≤ e.time ∧ e.time ≤ w₁.now := by
  obtain ⟨es', hes', hall⟩ := h.gains
  cases hes.unique hes'
  exact hall

end Extends
end World

namespace Work

theorem node_of_ends_connect {S : Setting σ} {w w' : World σ} {node : Node} {client : Client}
    (h : (connect node).Ends S w (.ok (.ok client)) w') : client.node = node := by
  rcases ends_connect_iff.1 h with ⟨a, ha, -, hr⟩ | ⟨-, hr, -⟩
  · cases hr
    rcases World.connection_cases ha with ⟨e, he, -⟩ | ⟨channel, w₁, hclient, -⟩
    · cases he
    · cases hclient
      rfl
  · cases hr

/-- Work that begins with a call goes on with the answer or is cut off; the journal shows which. -/
theorem gains_of_ends_call_bind {S : Setting σ} {w w' : World σ} {c : Call}
    {f : c.Result → Work σ β} {r : Except Stop β} (h : (call c >>= f).Ends S w r w') :
    (∃ a w₁, w.Gains w₁ [.sent w.now c, .answered w₁.now c a] ∧ (f a).Ends S w₁ r w') ∨
      w.Gains w' [.sent w.now c] ∧ r = .error .overdue := by
  rcases ends_bind_iff.1 h with ⟨a, w₁, hcall, hrest⟩ | ⟨e, hcall, rfl⟩
  · rcases ends_call_iff.1 hcall with ⟨a', ha, -, hr⟩ | ⟨-, hr, -⟩
    · cases hr
      exact .inl ⟨a, w₁, World.gains_answer ha, hrest⟩
    · cases hr
  · rcases ends_call_iff.1 hcall with ⟨a', -, -, hr⟩ | ⟨-, hr, rfl⟩
    · cases hr
    · cases hr
      exact .inr ⟨(w.gains_asked _ c).of_journal_eq (World.expired_journal _ S), rfl⟩

theorem gains_of_ends_connect_bind {S : Setting σ} {w w' : World σ} {node : Node}
    {f : Except Error Client → Work σ β} {r : Except Stop β}
    (h : (connect node >>= f).Ends S w r w') :
    (∃ e w₁, w.Gains w₁ [.sent w.now (.connect node), .answered w₁.now (.connect node) (.error e)] ∧
        (f (.error e)).Ends S w₁ r w') ∨
      (∃ client w₁, client.node = node ∧
        w.Gains w₁
          [.sent w.now (.connect node), .answered w₁.now (.connect node) (.ok client.channel)] ∧
        (f (.ok client)).Ends S w₁ r w') ∨
      w.Gains w' [.sent w.now (.connect node)] ∧ r = .error .overdue := by
  rcases ends_bind_iff.1 h with ⟨a, w₁, hcall, hrest⟩ | ⟨e, hcall, rfl⟩
  · rcases ends_connect_iff.1 hcall with ⟨a', ha, -, hr⟩ | ⟨-, hr, -⟩
    · cases hr
      rcases World.connection_cases ha with ⟨e, rfl, hanswer⟩ | ⟨channel, w₂, rfl, hanswer, rfl⟩
      · exact .inl ⟨e, w₁, World.gains_answer hanswer, hrest⟩
      · have hgains : w.Gains { w₂ with connections := w.connections + 1 }
            [.sent w.now (.connect node), .answered w₂.now (.connect node) (.ok channel)] :=
          (World.gains_answer hanswer).of_journal_eq rfl
        exact .inr (.inl ⟨_, _, rfl, hgains, hrest⟩)
    · cases hr
  · rcases ends_connect_iff.1 hcall with ⟨a', -, -, hr⟩ | ⟨-, hr, rfl⟩
    · cases hr
    · cases hr
      exact .inr (.inr ⟨(w.gains_asked _ _).of_journal_eq (World.expired_journal _ S), rfl⟩)

variable {S : Setting σ} {P Q : Call → Prop}

/-- In the setting the work ends, whatever world it begins in, and makes no other calls than those
with `P`. -/
def Runs (S : Setting σ) (P : Call → Prop) (x : Work σ α) : Prop :=
  ∀ w, ∃ r w', x.Ends S w r w' ∧ w.Extends P w'

theorem Ends.extends {x : Work σ α} {w w' : World σ} {r : Except Stop α} (h : x.Ends S w r w')
    (hx : x.Runs S P) : w.Extends P w' := by
  obtain ⟨r', w₁, hends, hextends⟩ := hx w
  obtain ⟨-, rfl⟩ := h.unique hends
  exact hextends

namespace Runs

theorem mono {x : Work σ α} (h : x.Runs S P) (hPQ : ∀ c, P c → Q c) : x.Runs S Q := by
  intro w
  obtain ⟨r, w', hends, hextends⟩ := h w
  exact ⟨r, w', hends, hextends.mono hPQ⟩

protected theorem pure (a : α) : (pure a : Work σ α).Runs S P :=
  fun w => ⟨_, w, ends_pure_iff.2 ⟨rfl, rfl⟩, .refl w⟩

protected theorem fail (e : Error) : (fail e : Work σ α).Runs S P :=
  fun w => ⟨_, w, ends_fail_iff.2 ⟨rfl, rfl⟩, .refl w⟩

protected theorem ofExcept (x : Except Error α) : (ofExcept x : Work σ α).Runs S P :=
  fun w => ⟨_, w, ends_ofExcept_iff.2 ⟨rfl, rfl⟩, .refl w⟩

protected theorem bind_of_ends {x : Work σ α} {f : α → Work σ β} (hx : x.Runs S P)
    (hf : ∀ w a w₁, x.Ends S w (.ok a) w₁ → (f a).Runs S P) : (x >>= f).Runs S P := by
  intro w
  obtain ⟨e | a, w₁, h, hextends⟩ := hx w
  · exact ⟨.error e, w₁, h.bind_error f, hextends⟩
  · obtain ⟨r, w₂, hrest, hextends'⟩ := hf w a w₁ h w₁
    exact ⟨r, w₂, h.bind hrest, hextends.trans hextends'⟩

protected theorem bind {x : Work σ α} {f : α → Work σ β} (hx : x.Runs S P)
    (hf : ∀ a, (f a).Runs S P) : (x >>= f).Runs S P :=
  .bind_of_ends hx fun _ a _ _ => hf a

protected theorem clock : (clock : Work σ Instant).Runs S P :=
  fun w => ⟨_, w, ends_clock, .refl w⟩

protected theorem raisedAt? : (raisedAt? : Work σ (Option Instant)).Runs S P :=
  fun w => ⟨.ok (S.signal.raisedAt? w.journal), w, rfl, .refl w⟩

protected theorem favours : (favours : Work σ (ℕ → Branch)).Runs S P :=
  fun w => ⟨_, w, ends_favours, .refl w⟩

protected theorem cancelled : (cancelled : Work σ Bool).Runs S P :=
  fun w => ⟨_, w, result?_cancelled, .refl w⟩

protected theorem waitUntil (time : Option Instant) : (waitUntil time : Work σ Unit).Runs S P := by
  intro w
  by_cases h : ∃ t, time = some t ∧ S.Allows t
  · obtain ⟨t, rfl, ht⟩ := h
    exact ⟨_, _, ends_waitUntil ht, .advance w t⟩
  · have hnot : ∀ t, time = some t → ¬ S.Allows t := fun t ht hS => h ⟨t, ht, hS⟩
    exact ⟨_, _, ends_waitUntil_iff.2 (.inr ⟨hnot, rfl, rfl⟩), .expired w S⟩

protected theorem call {c : Call} (hc : P c) : (call c : Work σ _).Runs S P := by
  intro w
  by_cases h : ∃ a w₁, w.answer? S.environment c = some (a, w₁) ∧ S.Allows w₁.now
  · obtain ⟨a, w₁, ha, hw⟩ := h
    exact ⟨_, _, ends_call ha hw, .answer hc ha⟩
  · exact ⟨_, _, ends_call_overdue fun a w₁ ha hw => h ⟨a, w₁, ha, hw⟩,
      (World.Extends.asked w _ hc).trans (.expired _ S)⟩

protected theorem connect {node : Node} (hc : P (.connect node)) :
    (connect node : Work σ _).Runs S P := by
  intro w
  by_cases h : ∃ a w₁, w.connection? S.environment node = some (a, w₁) ∧ S.Allows w₁.now
  · obtain ⟨a, w₁, ha, hw⟩ := h
    refine ⟨_, _, ends_connect ha hw, ?_⟩
    rcases World.connection_cases ha with ⟨e, -, hanswer⟩ | ⟨channel, w₂, -, hanswer, rfl⟩
    · exact .answer hc hanswer
    · exact (World.Extends.answer hc hanswer).trans (.of_journal_eq le_rfl rfl)
  · exact ⟨_, _, ends_connect_overdue fun a w₁ ha hw => h ⟨a, w₁, ha, hw⟩,
      (World.Extends.asked w _ hc).trans (.expired _ S)⟩

protected theorem connect_bind {node : Node} {f : Except Error Client → Work σ β}
    (hc : P (.connect node)) (herror : ∀ e, (f (.error e)).Runs S P)
    (hok : ∀ client, client.node = node → (f (.ok client)).Runs S P) :
    (connect node >>= f).Runs S P := by
  refine .bind_of_ends (.connect hc) fun w a w₁ h => ?_
  cases a with
  | error e => exact herror e
  | ok client => exact hok client (node_of_ends_connect h)

protected theorem request {client : Client} {q : Request} (hc : P (.request client q)) :
    (request client q : Work σ _).Runs S P :=
  .call hc

protected theorem within (d : Duration) {x : Work σ α} (hx : ∀ S', x.Runs S' P) :
    (within d x).Runs S P := by
  intro w
  obtain ⟨(e | _) | a, w', h, hextends⟩ := hx (limited S w d) w
  · exact ⟨_, w', ends_within_iff.2 (.inr (.inr ⟨e, h, rfl⟩)), hextends⟩
  · exact ⟨_, w', ends_within_iff.2 (.inr (.inl ⟨h, rfl⟩)), hextends⟩
  · exact ⟨_, w', ends_within_iff.2 (.inl ⟨a, h, rfl⟩), hextends⟩

protected theorem pause (d : Duration) : (pause d : Work σ Bool).Runs S P := by
  refine .bind .clock fun now => .bind .raisedAt? fun raised => ?_
  cases raised with
  | none => exact .bind (.waitUntil _) fun _ => .pure false
  | some time =>
    dsimp only
    split
    · exact .bind (.waitUntil _) fun _ => .pure true
    · exact .bind (.waitUntil _) fun _ => .pure false

protected theorem checkpoint : (checkpoint : Work σ Unit).Runs S P := by
  refine .bind .cancelled fun raised => ?_
  split
  · exact .fail _
  · exact .pure ()

protected theorem display {text : String} (hc : P (.display text)) :
    (display text : Work σ Unit).Runs S P :=
  .bind (.call hc) fun _ => .pure ()

protected theorem ask {question : String} (hc : P (.ask question)) :
    (ask question : Work σ Bool).Runs S P :=
  .bind (.call hc) fun a => .ofExcept a

/-- Repeated work ends if each round does and the rounds that ask for another use something up. -/
theorem exists_ends_untilSome {x : Work σ (Option α)} (hx : x.Runs S P) (I : World σ → Prop)
    (left : World σ → ℕ)
    (hround : ∀ w w', I w → x.Repeats S w w' → I w' ∧ left w' < left w) {w : World σ} (hw : I w) :
    ∃ r w', (untilSome x).Ends S w r w' ∧ w.Extends P w' := by
  induction hn : left w using Nat.strong_induction_on generalizing w with
  | _ n ih =>
    obtain ⟨e | _ | a, w₁, h, hextends⟩ := hx w
    · exact ⟨.error e, w₁, ends_untilSome_iff.2 ⟨w, .refl, h⟩, hextends⟩
    · obtain ⟨hw₁, hlt⟩ := hround w w₁ hw h
      obtain ⟨r, w₂, hrest, hextends'⟩ := ih _ (hn ▸ hlt) hw₁ rfl
      obtain ⟨w₃, hchain, hlast⟩ := ends_untilSome_iff.1 hrest
      exact ⟨r, w₂, ends_untilSome_iff.2 ⟨w₃, .head h hchain, hlast⟩, hextends.trans hextends'⟩
    · exact ⟨.ok a, w₁, ends_untilSome_iff.2 ⟨w, .refl, h⟩, hextends⟩

end Runs
end Work
end Rollout
