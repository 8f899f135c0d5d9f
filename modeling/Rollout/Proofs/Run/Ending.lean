import Mathlib.Logic.Relation
import Mathlib.Order.MinMax
import Rollout.Run.Work

/-!
# How work ends

Work is a function of the setting and the world it begins in. `Work.Ends` reads it as a relation, which
suits case distinctions on what happened; the equations for `result?` go in the other direction and
compute. Both are given once for each operation of `Work`, and nothing else opens the operations.
-/

namespace Rollout

variable {σ α β : Type}

/-- No limit of the setting has passed at `time`. -/
def Setting.Allows (S : Setting σ) (time : Instant) : Prop :=
  ∀ limit, S.limit = some limit → time ≤ limit

theorem Setting.allows_of_limit_none {S : Setting σ} (h : S.limit = none) (time : Instant) :
    S.Allows time := by
  simp [Allows, h]

theorem Setting.allows_iff {S : Setting σ} {limit : Instant} (h : S.limit = some limit)
    (time : Instant) : S.Allows time ↔ time ≤ limit := by
  simp [Allows, h]

/-- Is the signal raised by `time`, as far as the journal tells? -/
def Setting.RaisedBy (S : Setting σ) (journal : Journal) (time : Instant) : Prop :=
  ∃ raised, S.signal.raisedAt? journal = some raised ∧ raised ≤ time

namespace World

def asked (w : World σ) (env : Environment σ) (c : Call) : World σ :=
  { w with
    state := (env.serve w.state w.now c).begun
    journal := w.journal.push (.sent w.now c) }

/-- What comes of calling `c`, and the world then; nothing if the answer never arrives. -/
def answer? (w : World σ) (env : Environment σ) (c : Call) : Option (c.Result × World σ) :=
  let service := env.serve w.state w.now c
  service.delay.map fun d =>
    let (state, result) := service.finish service.begun
    (result,
      { w with
        now := w.now + d
        state
        journal := (w.journal.push (.sent w.now c)).push (.answered (w.now + d) c result) })

/-- What comes of connecting to a node: a client has the number of the connections before it. -/
def connection? (w : World σ) (env : Environment σ) (node : Node) :
    Option (Except Error Client × World σ) :=
  (w.answer? env (.connect node)).map fun
    | (.error e, w') => (.error e, w')
    | (.ok channel, w') =>
      (.ok ⟨node, w.connections, channel⟩, { w' with connections := w.connections + 1 })

/-- The world when nothing more is waited for: at the limit if there is one. -/
def expired (w : World σ) (S : Setting σ) : World σ :=
  match S.limit with
  | some limit => w.advance limit
  | none => w

@[simp] theorem advance_journal (w : World σ) (t : Instant) :
    (w.advance t).journal = w.journal := rfl

@[simp] theorem advance_now (w : World σ) (t : Instant) : (w.advance t).now = max w.now t := rfl

@[simp] theorem advance_max (w : World σ) (t : Instant) :
    w.advance (max w.now t) = w.advance t := by
  simp [advance]

theorem expired_of_limit_none (w : World σ) {S : Setting σ} (h : S.limit = none) :
    w.expired S = w := by
  simp [expired, h]

theorem expired_of_limit {S : Setting σ} {limit : Instant} (w : World σ)
    (h : S.limit = some limit) : w.expired S = w.advance limit := by
  simp [expired, h]

@[simp] theorem expired_journal (w : World σ) (S : Setting σ) :
    (w.expired S).journal = w.journal := by
  cases h : S.limit with
  | none => rw [expired_of_limit_none w h]
  | some limit => rw [expired_of_limit w h, advance_journal]

theorem le_now_expired (w : World σ) (S : Setting σ) : w.now ≤ (w.expired S).now := by
  cases h : S.limit with
  | none => rw [expired_of_limit_none w h]
  | some limit =>
    rw [expired_of_limit w h]
    exact le_max_left _ _

end World

namespace Work

variable {S : Setting σ} {w w' : World σ}

/-- The work, begun in `w`, ends with `r` in the world `w'`. -/
def Ends (x : Work σ α) (S : Setting σ) (w : World σ) (r : Except Stop α) (w' : World σ) : Prop :=
  x.result? S w = some (r, w')

theorem Ends.unique {x : Work σ α} {r r' : Except Stop α} {w₁ w₂ : World σ}
    (h : x.Ends S w r w₁) (h' : x.Ends S w r' w₂) : r = r' ∧ w₁ = w₂ := by
  have := h.symm.trans h'
  simpa using this

/-! ## Composing work -/

theorem result?_pure (a : α) : (pure a : Work σ α).result? S w = some (.ok a, w) := rfl

theorem result?_throw (e : Stop) : (throw e : Work σ α).result? S w = some (.error e, w) := rfl

theorem result?_bind (x : Work σ α) (f : α → Work σ β) :
    (x >>= f).result? S w =
      match x.result? S w with
      | some (.ok a, w₁) => (f a).result? S w₁
      | some (.error e, w₁) => some (.error e, w₁)
      | none => none := by
  change (do match (← x.result? S w) with | _ => _) = _
  rcases h : x.result? S w with _ | ⟨r | a, w₁⟩ <;> rfl

theorem ends_pure_iff {a : α} {r : Except Stop α} :
    (pure a : Work σ α).Ends S w r w' ↔ r = .ok a ∧ w' = w := by
  simp [Ends, result?_pure, eq_comm]

theorem ends_throw_iff {e : Stop} {r : Except Stop α} :
    (throw e : Work σ α).Ends S w r w' ↔ r = .error e ∧ w' = w := by
  simp [Ends, result?_throw, eq_comm]

theorem ends_fail_iff {e : Error} {r : Except Stop α} :
    (fail e : Work σ α).Ends S w r w' ↔ r = .error (.error e) ∧ w' = w :=
  ends_throw_iff

theorem Ends.bind {x : Work σ α} {f : α → Work σ β} {a : α} {w₁ : World σ} {r : Except Stop β}
    (hx : x.Ends S w (.ok a) w₁) (hf : (f a).Ends S w₁ r w') : (x >>= f).Ends S w r w' := by
  unfold Ends at *
  rw [result?_bind, hx]
  exact hf

theorem Ends.bind_error {x : Work σ α} {e : Stop} (f : α → Work σ β)
    (hx : x.Ends S w (.error e) w') : (x >>= f).Ends S w (.error e) w' := by
  unfold Ends at *
  rw [result?_bind, hx]

theorem Ends.bind_iff {x : Work σ α} {f : α → Work σ β} {a : α} {w₁ : World σ} {r : Except Stop β}
    (hx : x.Ends S w (.ok a) w₁) : (x >>= f).Ends S w r w' ↔ (f a).Ends S w₁ r w' := by
  unfold Ends at *
  rw [result?_bind, hx]

/-- Work in two parts ends with the first if that fails, else with the second. -/
theorem ends_bind_iff {x : Work σ α} {f : α → Work σ β} {r : Except Stop β} :
    (x >>= f).Ends S w r w' ↔
      (∃ a w₁, x.Ends S w (.ok a) w₁ ∧ (f a).Ends S w₁ r w') ∨
        ∃ e, x.Ends S w (.error e) w' ∧ r = .error e := by
  constructor
  · intro h
    unfold Ends at *
    rw [result?_bind] at h
    rcases hx : x.result? S w with _ | ⟨e | a, w₁⟩ <;> simp only [hx] at h
    · cases h
    · cases h
      exact .inr ⟨e, rfl, rfl⟩
    · exact .inl ⟨a, w₁, rfl, h⟩
  · rintro (⟨a, w₁, hx, hf⟩ | ⟨e, hx, rfl⟩)
    · exact hx.bind hf
    · exact hx.bind_error f

theorem ends_ofExcept_iff {x : Except Error α} {r : Except Stop α} :
    (ofExcept x : Work σ α).Ends S w r w' ↔ r = x.mapError .error ∧ w' = w := by
  cases x with
  | ok a => exact ends_pure_iff
  | error e => exact ends_fail_iff

theorem ends_ofExcept_bind_iff {x : Except Error α} {f : α → Work σ β} {r : Except Stop β} :
    (ofExcept x >>= f).Ends S w r w' ↔
      (∃ a, x = .ok a ∧ (f a).Ends S w r w') ∨
        ∃ e, x = .error e ∧ r = .error (.error e) ∧ w' = w := by
  cases x with
  | ok a =>
    change (f a).Ends S w r w' ↔ _
    simp
  | error e =>
    change (throw (.error e) : Work σ β).Ends S w r w' ↔ _
    simp [ends_throw_iff]

/-! ## Looking around -/

theorem result?_read_bind (f : Setting σ → Work σ α) :
    (read >>= f).result? S w = (f S).result? S w := rfl

theorem result?_get_bind (f : World σ → Work σ α) :
    (get >>= f).result? S w = (f w).result? S w := rfl

theorem result?_modify_bind (g : World σ → World σ) (f : Unit → Work σ α) :
    ((modify g : Work σ PUnit) >>= f).result? S w = (f ()).result? S (g w) := rfl

theorem result?_record_bind (e : Entry) (f : Unit → Work σ α) :
    (record e >>= f).result? S w = (f ()).result? S { w with journal := w.journal.push e } := rfl

theorem result?_clock_bind (f : Instant → Work σ α) :
    (clock >>= f).result? S w = (f w.now).result? S w := rfl

theorem ends_clock : (clock : Work σ Instant).Ends S w (.ok w.now) w := rfl

theorem result?_raisedAt?_bind (f : Option Instant → Work σ α) :
    (raisedAt? >>= f).result? S w = (f (S.signal.raisedAt? w.journal)).result? S w := rfl

theorem result?_favours_bind (f : (ℕ → Branch) → Work σ α) :
    (favours >>= f).result? S w = (f (S.environment.favours w.state w.now)).result? S w := rfl

theorem ends_favours :
    (favours : Work σ (ℕ → Branch)).Ends S w (.ok (S.environment.favours w.state w.now)) w := rfl

theorem result?_cancelled :
    (cancelled : Work σ Bool).result? S w =
      some (.ok ((S.signal.raisedAt? w.journal).any (· ≤ w.now)), w) := by
  change some (Except.ok _, w) = _
  cases S.signal.raisedAt? w.journal <;> simp

theorem ends_cancelled_iff {r : Except Stop Bool} :
    (cancelled : Work σ Bool).Ends S w r w' ↔
      (S.RaisedBy w.journal w.now ∧ r = .ok true ∨
        ¬ S.RaisedBy w.journal w.now ∧ r = .ok false) ∧ w' = w := by
  unfold Ends Setting.RaisedBy
  rw [result?_cancelled]
  rcases S.signal.raisedAt? w.journal with _ | t
  · simp [eq_comm]
  · by_cases h : t ≤ w.now <;> simp [h, eq_comm]

theorem ends_checkpoint_iff {r : Except Stop Unit} :
    (checkpoint : Work σ Unit).Ends S w r w' ↔
      (S.RaisedBy w.journal w.now ∧ r = .error (.error .cancelled) ∨
        ¬ S.RaisedBy w.journal w.now ∧ r = .ok ()) ∧ w' = w := by
  unfold checkpoint
  rw [ends_bind_iff]
  constructor
  · rintro (⟨raised, w₁, hcancelled, h⟩ | ⟨e, hcancelled, -⟩)
    · obtain ⟨⟨hraised, hr⟩ | ⟨hraised, hr⟩, rfl⟩ := ends_cancelled_iff.1 hcancelled
      · cases hr
        obtain ⟨rfl, rfl⟩ := ends_fail_iff.1 h
        exact ⟨.inl ⟨hraised, rfl⟩, rfl⟩
      · cases hr
        obtain ⟨rfl, rfl⟩ := ends_pure_iff.1 h
        exact ⟨.inr ⟨hraised, rfl⟩, rfl⟩
    · obtain ⟨⟨-, hr⟩ | ⟨-, hr⟩, -⟩ := ends_cancelled_iff.1 hcancelled <;> cases hr
  · rintro ⟨⟨hraised, rfl⟩ | ⟨hraised, rfl⟩, rfl⟩
    · exact .inl ⟨true, w', ends_cancelled_iff.2 ⟨.inl ⟨hraised, rfl⟩, rfl⟩,
        ends_fail_iff.2 ⟨rfl, rfl⟩⟩
    · exact .inl ⟨false, w', ends_cancelled_iff.2 ⟨.inr ⟨hraised, rfl⟩, rfl⟩,
        ends_pure_iff.2 ⟨rfl, rfl⟩⟩

/-! ## Waiting -/

theorem ends_waitUntil_iff {time : Option Instant} {r : Except Stop Unit} :
    (waitUntil time).Ends S w r w' ↔
      (∃ t, time = some t ∧ S.Allows t ∧ r = .ok () ∧ w' = w.advance t) ∨
        (∀ t, time = some t → ¬ S.Allows t) ∧ r = .error .overdue ∧ w' = w.expired S := by
  unfold Ends waitUntil
  rw [result?_read_bind]
  have hadvance (t : Instant) :
      (advance t : Work σ Unit).result? S w = some (.ok (), w.advance t) := rfl
  rcases time with _ | t <;> rcases hS : S.limit with _ | l <;> dsimp only
  · simp [result?_throw, World.expired, hS, eq_comm]
  · simp [result?_bind, hadvance, result?_throw, World.expired, hS, eq_comm]
  · simp [hadvance, Setting.Allows, hS, eq_comm]
  · by_cases h : t ≤ l
    · simp [hadvance, Setting.Allows, hS, h, eq_comm]
    · simp [result?_bind, hadvance, result?_throw, Setting.Allows, World.expired, hS, h, eq_comm,
        Nat.lt_of_not_le h]

theorem ends_waitUntil {t : Instant} (h : S.Allows t) :
    (waitUntil (some t)).Ends S w (.ok ()) (w.advance t) :=
  ends_waitUntil_iff.2 (.inl ⟨t, rfl, h, rfl, rfl⟩)

/-- A pause ends early if the signal is raised before it is over, or just then. -/
theorem ends_pause_iff (hS : S.limit = none) {d : Duration} {r : Except Stop Bool} :
    (pause d).Ends S w r w' ↔
      (∃ raised, S.signal.raisedAt? w.journal = some raised ∧ raised ≤ w.now + d ∧
        r = .ok true ∧ w' = w.advance raised) ∨
      ¬ S.RaisedBy w.journal (w.now + d) ∧ r = .ok false ∧ w' = w.advance (w.now + d) := by
  have hwait (t : Instant) : (waitUntil (some t)).result? S w = some (.ok (), w.advance t) :=
    ends_waitUntil (S.allows_of_limit_none hS t)
  unfold Ends pause Setting.RaisedBy
  rw [result?_clock_bind, result?_raisedAt?_bind]
  rcases S.signal.raisedAt? w.journal with _ | raised <;> dsimp only
  · simp only [result?_bind, hwait, result?_pure]
    simp [eq_comm]
  · by_cases h : raised ≤ w.now + d <;>
      simp only [h, if_true, if_false, result?_bind, hwait, result?_pure]
    · simp [World.advance, h, eq_comm]
    · simp [h, eq_comm]

/-! ## Calling -/

theorem result?_call_eq (c : Call) :
    (call c).result? S w =
      (waitUntil ((S.environment.serve w.state w.now c).delay.map (w.now + ·)) >>= fun _ => do
        let (state, result) := (S.environment.serve w.state w.now c).finish (← get).state
        modify fun w => { w with state }
        record (.answered (← clock) c result)
        return result).result? S (w.asked S.environment c) := rfl

theorem ends_call {c : Call} {a : c.Result} (h : w.answer? S.environment c = some (a, w'))
    (hw : S.Allows w'.now) : (call c).Ends S w (.ok a) w' := by
  obtain ⟨d, hd, ha⟩ := Option.map_eq_some_iff.1 h
  obtain ⟨rfl, rfl⟩ := Prod.mk.inj ha
  unfold Ends
  rw [result?_call_eq, hd]
  refine (ends_waitUntil (w := w.asked S.environment c) hw).bind ?_
  have hnow : max w.now (w.now + d) = w.now + d := Nat.max_eq_right (Nat.le_add_right _ _)
  unfold Ends
  rw [result?_get_bind]
  dsimp only
  rw [result?_modify_bind, result?_clock_bind, result?_record_bind, result?_pure]
  simp only [World.asked, World.advance, hnow]

theorem ends_call_overdue {c : Call}
    (h : ∀ a w₁, w.answer? S.environment c = some (a, w₁) → ¬ S.Allows w₁.now) :
    (call c).Ends S w (.error .overdue) ((w.asked S.environment c).expired S) := by
  unfold Ends
  rw [result?_call_eq]
  refine Ends.bind_error _ (ends_waitUntil_iff.2 (.inr ⟨?_, rfl, rfl⟩))
  intro t ht
  obtain ⟨d, hd, rfl⟩ := Option.map_eq_some_iff.1 ht
  refine h _ _ (Option.map_eq_some_iff.2 ⟨d, hd, rfl⟩)

theorem ends_call_iff {c : Call} {r : Except Stop c.Result} :
    (call c).Ends S w r w' ↔
      (∃ a, w.answer? S.environment c = some (a, w') ∧ S.Allows w'.now ∧ r = .ok a) ∨
        (∀ a w₁, w.answer? S.environment c = some (a, w₁) → ¬ S.Allows w₁.now) ∧
          r = .error .overdue ∧ w' = (w.asked S.environment c).expired S := by
  constructor
  · intro h
    by_cases hin : ∃ a w₁, w.answer? S.environment c = some (a, w₁) ∧ S.Allows w₁.now
    · obtain ⟨a, w₁, ha, hw⟩ := hin
      obtain ⟨rfl, rfl⟩ := h.unique (ends_call ha hw)
      exact .inl ⟨a, ha, hw, rfl⟩
    · have hlate : ∀ a w₁, w.answer? S.environment c = some (a, w₁) → ¬ S.Allows w₁.now :=
        fun a w₁ ha hw => hin ⟨a, w₁, ha, hw⟩
      obtain ⟨rfl, rfl⟩ := h.unique (ends_call_overdue hlate)
      exact .inr ⟨hlate, rfl, rfl⟩
  · rintro (⟨a, ha, hw, rfl⟩ | ⟨hlate, rfl, rfl⟩)
    · exact ends_call ha hw
    · exact ends_call_overdue hlate

theorem ends_connect {node : Node} {a : Except Error Client}
    (h : w.connection? S.environment node = some (a, w')) (hw : S.Allows w'.now) :
    (connect node).Ends S w (.ok a) w' := by
  obtain ⟨⟨answer, w₁⟩, hanswer, ha⟩ := Option.map_eq_some_iff.1 h
  have hnumber : w₁.connections = w.connections := by
    obtain ⟨d, -, hd⟩ := Option.map_eq_some_iff.1 hanswer
    rw [← (Prod.mk.inj hd).2]
  cases answer with
  | error e =>
    obtain ⟨rfl, rfl⟩ := Prod.mk.inj ha
    exact (ends_call hanswer hw).bind (ends_pure_iff.2 ⟨rfl, rfl⟩)
  | ok channel =>
    obtain ⟨rfl, rfl⟩ := Prod.mk.inj ha
    refine (ends_call hanswer hw).bind ?_
    unfold Ends
    dsimp only
    rw [result?_get_bind, result?_modify_bind, result?_pure]
    simp only [hnumber]

theorem ends_connect_overdue {node : Node}
    (h : ∀ a w₁, w.connection? S.environment node = some (a, w₁) → ¬ S.Allows w₁.now) :
    (connect node).Ends S w (.error .overdue)
      ((w.asked S.environment (.connect node)).expired S) := by
  refine Ends.bind_error _ (ends_call_overdue ?_)
  intro a w₁ ha
  cases a with
  | error e => exact h (.error e) w₁ (Option.map_eq_some_iff.2 ⟨_, ha, rfl⟩)
  | ok channel =>
    exact h _ { w₁ with connections := w.connections + 1 } (Option.map_eq_some_iff.2 ⟨_, ha, rfl⟩)

theorem ends_connect_iff {node : Node} {r : Except Stop (Except Error Client)} :
    (connect node).Ends S w r w' ↔
      (∃ a, w.connection? S.environment node = some (a, w') ∧ S.Allows w'.now ∧ r = .ok a) ∨
        (∀ a w₁, w.connection? S.environment node = some (a, w₁) → ¬ S.Allows w₁.now) ∧
          r = .error .overdue ∧ w' = (w.asked S.environment (.connect node)).expired S := by
  constructor
  · intro h
    by_cases hin : ∃ a w₁, w.connection? S.environment node = some (a, w₁) ∧ S.Allows w₁.now
    · obtain ⟨a, w₁, ha, hw⟩ := hin
      obtain ⟨rfl, rfl⟩ := h.unique (ends_connect ha hw)
      exact .inl ⟨a, ha, hw, rfl⟩
    · have hlate : ∀ a w₁, w.connection? S.environment node = some (a, w₁) → ¬ S.Allows w₁.now :=
        fun a w₁ ha hw => hin ⟨a, w₁, ha, hw⟩
      obtain ⟨rfl, rfl⟩ := h.unique (ends_connect_overdue hlate)
      exact .inr ⟨hlate, rfl, rfl⟩
  · rintro (⟨a, ha, hw, rfl⟩ | ⟨hlate, rfl, rfl⟩)
    · exact ends_connect ha hw
    · exact ends_connect_overdue hlate

/-! ## Limits -/

def limited (S : Setting σ) (w : World σ) (d : Duration) : Setting σ :=
  { S with limit := some (w.now + d) }

/-- What is done under a limit either ends in time or leaves nothing. -/
theorem ends_within_iff {d : Duration} {x : Work σ α} {r : Except Stop (Option α)} :
    (within d x).Ends S w r w' ↔
      (∃ a, x.Ends (limited S w d) w (.ok a) w' ∧ r = .ok (some a)) ∨
        (x.Ends (limited S w d) w (.error .overdue) w' ∧ r = .ok none) ∨
          ∃ e, x.Ends (limited S w d) w (.error (.error e)) w' ∧ r = .error (.error e) := by
  have hwithin : (within d x).result? S w =
      match x.result? (limited S w d) w with
      | some (.ok a, w₁) => some (.ok (some a), w₁)
      | some (.error .overdue, w₁) => some (.ok none, w₁)
      | some (.error (.error e), w₁) => some (.error (.error e), w₁)
      | none => none := by
    change (do match (← x.result? (limited S w d) w) with | _ => _) = _
    rcases x.result? (limited S w d) w with _ | ⟨(e | _) | a, w₁⟩ <;> rfl
  unfold Ends
  rw [hwithin]
  rcases x.result? (limited S w d) w with _ | ⟨(e | _) | a, w₁⟩ <;> grind

/-! ## Repeating -/

/-- The world after a round that asks for another. -/
def Repeats (x : Work σ (Option α)) (S : Setting σ) (w w' : World σ) : Prop :=
  x.Ends S w (.ok none) w'

/-- How the round ends that is not followed by another. -/
def Concludes (x : Work σ (Option α)) (S : Setting σ) (w : World σ) (r : Except Stop α)
    (w' : World σ) : Prop :=
  x.Ends S w (r.map some) w'

/-- Repeated work ends after some rounds that ask for another with one that does not. -/
theorem ends_untilSome_iff {x : Work σ (Option α)} {r : Except Stop α} :
    (untilSome x).Ends S w r w' ↔
      ∃ w₁, Relation.ReflTransGen (x.Repeats S) w w₁ ∧ x.Concludes S w₁ r w' := by
  constructor
  · refine untilSome.go.partial_correctness x
      (fun S w p => ∃ w₁, Relation.ReflTransGen (x.Repeats S) w w₁ ∧ x.Concludes S w₁ p.1 p.2)
      ?_ S w (r, w')
    intro go ih S w p hp
    rcases hx : x.result? S w with _ | ⟨e | _ | a, w₁⟩ <;> simp only [hx] at hp
    · cases hp
    · cases hp
      exact ⟨w, .refl, hx⟩
    · obtain ⟨w₂, hchain, hlast⟩ := ih S w₁ p hp
      exact ⟨w₂, .head hx hchain, hlast⟩
    · cases hp
      exact ⟨w, .refl, hx⟩
  · rintro ⟨w₁, hchain, hlast⟩
    induction hchain using Relation.ReflTransGen.head_induction_on with
    | refl =>
      change untilSome.go x S w₁ = _
      rw [untilSome.go, hlast]
      cases r <;> rfl
    | head hround _ ih =>
      change untilSome.go x S _ = _
      rw [untilSome.go, hround]
      exact ih

end Work
end Rollout
