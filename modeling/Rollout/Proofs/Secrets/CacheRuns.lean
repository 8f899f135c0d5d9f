import Rollout.Proofs.Secrets.CacheSteps
import Rollout.Rehearsal.Vault

/-!
# The secrets cache loads once

`Cache.Run` is any number of callers at one cache that take their steps in any order, with the events in
the order they happened. Whatever the store answers, one load at most succeeds; what came before it were
loads that failed, each for the caller that performed it, and what comes after shares its bundle.
-/

namespace Rollout
namespace Cache

variable {σ : Type}

/-- A cache with nothing in it yet, and `n` callers that want the bundle. -/
def start (store : σ) (n : Nat) : Cache σ := { store, callers := List.replicate n .waiting }

/-- Steps of callers in any order, each with its event. -/
inductive Run (s : Store σ) (generate : σ → σ × Except Error Bundle) :
    Cache σ → List (Nat × Event) → Cache σ → Prop
  | nil {c : Cache σ} : Run s generate c [] c
  | cons {c c₁ c' : Cache σ} {i : Nat} {event : Event} {events : List (Nat × Event)}
      (h : Step s generate c i event c₁) (rest : Run s generate c₁ events c') :
      Run s generate c ((i, event) :: events) c'

variable {s : Store σ} {generate : σ → σ × Except Error Bundle} {c c' : Cache σ}
  {events later : List (Nat × Event)}

theorem run_append_iff : Run s generate c (events ++ later) c' ↔
    ∃ c₁, Run s generate c events c₁ ∧ Run s generate c₁ later c' := by
  constructor
  · intro h
    induction events generalizing c with
    | nil => exact ⟨c, .nil, h⟩
    | cons x events ih =>
      cases h with
      | cons h rest =>
        obtain ⟨c₁, hfirst, hlater⟩ := ih rest
        exact ⟨c₁, .cons h hfirst, hlater⟩
  · rintro ⟨c₁, h, hlater⟩
    induction h with
    | nil => exact hlater
    | cons h _ ih => exact .cons h (ih hlater)

theorem Run.at_event {before after : List (Nat × Event)} {i : Nat} {event : Event}
    (h : Run s generate c (before ++ (i, event) :: after) c') :
    ∃ c₀ c₁, Run s generate c before c₀ ∧ Step s generate c₀ i event c₁ ∧
      Run s generate c₁ after c' := by
  obtain ⟨c₀, hbefore, hrest⟩ := run_append_iff.1 h
  cases hrest with
  | cons hstep hafter => exact ⟨c₀, _, hbefore, hstep, hafter⟩

theorem Run.snoc {i : Nat} {event : Event} {c₁ : Cache σ} (h : Run s generate c events c₁)
    (hstep : Step s generate c₁ i event c') : Run s generate c (events ++ [(i, event)]) c' :=
  run_append_iff.2 ⟨c₁, h, .cons hstep .nil⟩

theorem sound_start (store : σ) (n : Nat) : (start store n).Sound := by
  have hwaiting {i : Nat} {caller : Caller} (hi : (start store n).callers[i]? = some caller) :
      caller = .waiting :=
    List.eq_of_mem_replicate (List.mem_of_getElem? hi)
  refine ⟨fun hi _ hbusy _ => ?_, fun hcached => ?_, fun hi => ?_⟩
  · rw [hwaiting hi] at hbusy
    cases hbusy
  · cases hcached
  · cases hwaiting hi

theorem Run.sound (h : Run s generate c events c') (hc : c.Sound) : c'.Sound := by
  induction h with
  | nil => exact hc
  | cons h _ ih => exact ih (h.sound hc)

/-- A caller has a result after a run if it had it before, or if one of its events gave it. -/
theorem Run.finished_iff (h : Run s generate c events c') {i : Nat} {r : Except Error Bundle} :
    c'.callers[i]? = some (.finished r) ↔
      c.callers[i]? = some (.finished r) ∨ ∃ event, (i, event) ∈ events ∧ event.result? = some r := by
  induction h with
  | nil => simp
  | cons h _ ih =>
    rw [ih, h.finished_iff, or_assoc]
    refine or_congr_right ⟨?_, ?_⟩
    · rintro (⟨rfl, hresult⟩ | ⟨event, hmem, hresult⟩)
      · exact ⟨_, List.mem_cons_self, hresult⟩
      · exact ⟨event, List.mem_cons_of_mem _ hmem, hresult⟩
    · rintro ⟨event, hmem, hresult⟩
      rcases List.mem_cons.1 hmem with heq | hmem
      · cases heq
        exact .inl ⟨rfl, hresult⟩
      · exact .inr ⟨event, hmem, hresult⟩

theorem Run.shared_of_cached (h : Run s generate c events c') (hc : c.Sound) {bundle : Bundle}
    (hcached : c.cached = some bundle) :
    (∀ x ∈ events, x.2 = .shared bundle) ∧ c'.cached = some bundle ∧ c'.store = c.store := by
  induction h with
  | nil => exact ⟨fun _ hx => absurd hx List.not_mem_nil, hcached, rfl⟩
  | cons h _ ih =>
    obtain ⟨hevent, hcached₁, hstore⟩ := h.shared_of_cached hc hcached
    obtain ⟨hrest, hcached', hstore'⟩ := ih (h.sound hc) hcached₁
    refine ⟨fun x hx => ?_, hcached', hstore'.trans hstore⟩
    rcases List.mem_cons.1 hx with rfl | hx
    · exact hevent
    · exact hrest x hx

theorem Run.loaded_of_cached (h : Run s generate c events c') {bundle : Bundle}
    (hcached : c'.cached = some bundle) :
    c.cached = some bundle ∨ ∃ x ∈ events, x.2.loaded? = some bundle := by
  induction h with
  | nil => exact .inl hcached
  | @cons c c₁ c' i event events h _ ih =>
    rcases ih hcached with hcached₁ | ⟨x, hx, hloaded⟩
    · rw [h.cached_eq, Option.or_eq_some_iff] at hcached₁
      rcases hcached₁ with hloaded | ⟨-, hcached⟩
      · exact .inr ⟨(i, event), List.mem_cons_self, hloaded⟩
      · exact .inl hcached
    · exact .inr ⟨x, List.mem_cons_of_mem _ hx, hloaded⟩

/-- One load at most succeeds, and none once something is cached. -/
theorem Run.countP_loaded_le (h : Run s generate c events c') (hc : c.Sound) :
    events.countP (·.2.loaded?.isSome) ≤ 1 := by
  induction h with
  | nil => exact Nat.zero_le _
  | @cons c c₁ c' i event events h rest ih =>
    rw [List.countP_cons]
    split
    · next hloaded =>
      obtain ⟨bundle, hloaded⟩ := Option.isSome_iff_exists.1 hloaded
      have hcached := h.cached_of_result? (Event.result?_of_loaded? hloaded)
      have hshared := (rest.shared_of_cached (h.sound hc) hcached).1
      have hnone : events.countP (·.2.loaded?.isSome) = 0 :=
        List.countP_eq_zero.2 fun x hx => by rw [hshared x hx]; exact Bool.false_ne_true
      omega
    · exact ih (h.sound hc)

/-! ## Runs come to an end -/

theorem exists_step_of_busy {i : Nat} {caller : Caller} (hi : c.callers[i]? = some caller)
    (hbusy : caller.isBusy = true) : ∃ event c', Step s generate c i event c' := by
  cases caller with
  | waiting => cases hbusy
  | finished => cases hbusy
  | reading =>
    rcases hget : s.get c.store with ⟨store, e | _ | bundle⟩
    · exact ⟨_, _, .unread hi hget⟩
    · rcases hmade : generate store with ⟨store', e | bundle⟩
      · exact ⟨_, _, .unmade hi hget hmade⟩
      · exact ⟨_, _, .made hi hget hmade⟩
    · exact ⟨_, _, .found hi hget⟩
  | storing bundle =>
    rcases hput : s.put c.store bundle with ⟨store, e | ⟨⟨⟩⟩⟩
    · exact ⟨_, _, .unstored hi hput⟩
    · exact ⟨_, _, .stored hi hput⟩

theorem exists_step (s : Store σ) (generate : σ → σ × Except Error Bundle) {i : Nat} {caller : Caller}
    (hi : c.callers[i]? = some caller)
    (hresult : caller.result? = none) : ∃ j event c', Step s generate c j event c' := by
  cases hlock : c.isLocked with
  | true =>
    obtain ⟨caller, hmem, hbusy⟩ := List.any_eq_true.1 hlock
    obtain ⟨j, hj⟩ := List.mem_iff_getElem?.1 hmem
    exact ⟨j, exists_step_of_busy hj hbusy⟩
  | false =>
    have hidle := isLocked_eq_false_iff.1 hlock i caller hi
    cases caller with
    | waiting =>
      rcases hcached : c.cached with _ | bundle
      · exact ⟨i, _, _, .begun hi hlock hcached⟩
      · exact ⟨i, _, _, .shared hi hlock hcached⟩
    | reading => cases hidle
    | storing => cases hidle
    | finished => cases hresult

theorem Run.length_add_total_le (h : Run s generate c events c') :
    events.length + Caller.total c'.callers ≤ Caller.total c.callers := by
  induction h with
  | nil => simp
  | cons h _ ih =>
    have := h.total_lt
    rw [List.length_cons]
    omega

theorem Run.length_le (h : Run s generate c events c') : events.length ≤ 3 * c.callers.length :=
  calc events.length
    _ ≤ events.length + Caller.total c'.callers := Nat.le_add_right _ _
    _ ≤ Caller.total c.callers := h.length_add_total_le
    _ ≤ 3 * c.callers.length := Caller.total_le c.callers

theorem Run.exists_step (h : Run s generate c events c') {i : Nat} {c₁ : Cache σ}
    (hstep : c'.step s generate i = some c₁) : ∃ event, Run s generate c (events ++ [(i, event)]) c₁ := by
  obtain ⟨event, hstep⟩ := step_iff.1 hstep
  exact ⟨event, h.snoc hstep⟩

/-- Every run can be continued until all callers have a result. -/
theorem exists_run_finished (s : Store σ) (generate : σ → σ × Except Error Bundle) (c : Cache σ) :
    ∃ events c', Run s generate c events c' ∧ ∀ caller ∈ c'.callers, caller.result?.isSome := by
  induction hleft : Caller.total c.callers using Nat.strongRecOn generalizing c with
  | ind left ih =>
    by_cases hall : ∀ caller ∈ c.callers, caller.result?.isSome
    · exact ⟨[], c, .nil, hall⟩
    · simp only [not_forall, Bool.not_eq_true, Option.isSome_eq_false_iff, Option.isNone_iff_eq_none]
        at hall
      obtain ⟨caller, hmem, hresult⟩ := hall
      obtain ⟨i, hi⟩ := List.mem_iff_getElem?.1 hmem
      obtain ⟨j, event, c₁, hstep⟩ := exists_step s generate hi hresult
      obtain ⟨events, c', hrun, hdone⟩ := ih _ (hleft ▸ hstep.total_lt) c₁ rfl
      exact ⟨_, c', .cons hstep hrun, hdone⟩

/-! ## One load for all -/

/-- What becomes of a load that fails with `e`, the last of the events `before`: the caller that
performed it has the error, the others are where they were, and the next that comes loads anew. -/
structure Reported (s : Store σ) (generate : σ → σ × Except Error Bundle) (i : Nat) (e : Error)
    (c₀ c₁ : Cache σ) (after : List (Nat × Event)) : Prop where
  caller : c₁.callers = c₀.callers.set i (.finished (.error e))
  cached : c₁.cached = none
  next : ∀ j, c₁.callers[j]? = some .waiting → c₁.step s generate j = some (c₁.setCaller j .reading)
  begun : ∀ x rest, after = x :: rest → x.2 = .begun

theorem Step.reported {i : Nat} {event : Event} {e : Error} {c₀ c₁ : Cache σ}
    (h : Step s generate c₀ i event c₁) (hc : c₀.Sound) (hfails : event.failure? = some e)
    (hrest : Run s generate c₁ later c') : Reported s generate i e c₀ c₁ later := by
  have hcached : c₁.cached = none := by
    cases h with
    | unread hi => exact hc.cached_eq_none hi rfl
    | unmade hi => exact hc.cached_eq_none hi rfl
    | unstored hi => exact hc.cached_eq_none hi rfl
    | _ => cases hfails
  have hlock := h.isLocked_of_result? hc (Event.result?_of_failure? hfails)
  have hidle {j : Nat} {caller : Caller} (hj : c₁.callers[j]? = some caller)
      (hbusy : caller.isBusy = true) : False := by
    rw [isLocked_eq_false_iff.1 hlock j caller hj] at hbusy
    cases hbusy
  refine ⟨?_, hcached, fun j hj => (Step.begun hj hlock hcached).step_eq, ?_⟩
  · obtain ⟨_, after, -, -, hcallers, hafter⟩ := h.callers_eq
    rw [Event.result?_of_failure? hfails, Caller.result?_eq_some_iff] at hafter
    rw [hcallers, hafter]
  · rintro ⟨j, event⟩ rest rfl
    cases hrest with
    | cons h _ =>
      cases h with
      | begun => rfl
      | shared _ _ hb => rw [hcached] at hb; cases hb
      | found hj => exact (hidle hj rfl).elim
      | unread hj => exact (hidle hj rfl).elim
      | made hj => exact (hidle hj rfl).elim
      | unmade hj => exact (hidle hj rfl).elim
      | stored hj => exact (hidle hj rfl).elim
      | unstored hj => exact (hidle hj rfl).elim

/-- How the callers of a cache that was empty come by the bundle, over the events up to `c`. -/
structure LoadsOnce (s : Store σ) (generate : σ → σ × Except Error Bundle) (c₀ : Cache σ)
    (events : List (Nat × Event)) (c : Cache σ) : Prop where
  /-- All that return a bundle return the same. -/
  same : ∀ {i j : Nat} {bundle bundle' : Bundle}, c.callers[i]? = some (.finished (.ok bundle)) →
    c.callers[j]? = some (.finished (.ok bundle')) → bundle = bundle'
  /-- After the first bundle is returned the store is not asked and nothing is generated. -/
  after_first : ∀ {before after : List (Nat × Event)} {i : Nat} {event : Event} {bundle : Bundle},
    events = before ++ (i, event) :: after → event.result? = some (.ok bundle) →
    (∀ x ∈ after, x.2 = .shared bundle) ∧
      ∃ c₁, Run s generate c₀ (before ++ [(i, event)]) c₁ ∧ c.store = c₁.store
  /-- A bundle is returned once the store gave it, or took it. -/
  returned : ∀ {before after : List (Nat × Event)} {i : Nat} {event : Event} {bundle : Bundle},
    events = before ++ (i, event) :: after → event.result? = some (.ok bundle) →
    ∃ j, (j, .found bundle) ∈ before ++ [(i, event)] ∨ (j, .stored bundle) ∈ before ++ [(i, event)]
  cached : ∀ {bundle : Bundle}, c.cached = some bundle →
    ∃ j, (j, .found bundle) ∈ events ∨ (j, .stored bundle) ∈ events
  /-- Nobody gets a bundle that the store did not take, unless a later load comes to it. -/
  unstored : ∀ {before after : List (Nat × Event)} {i : Nat} {bundle : Bundle} {e : Error},
    events = before ++ (i, .unstored bundle e) :: after →
    ∀ {j : Nat} {bundle' : Bundle}, c.callers[j]? = some (.finished (.ok bundle')) →
    ∃ k, (k, .found bundle') ∈ after ∨ (k, .stored bundle') ∈ after
  loads : events.countP (·.2.loaded?.isSome) ≤ 1
  puts : events.countP (·.2.isStored) ≤ 1
  /-- A load that fails is reported to the caller that performed it. -/
  errors : ∀ {i : Nat} {e : Error}, c.callers[i]? = some (.finished (.error e)) ↔
    ∃ event, (i, event) ∈ events ∧ event.failure? = some e
  failures : ∀ {before after : List (Nat × Event)} {i : Nat} {event : Event} {e : Error},
    events = before ++ (i, event) :: after → event.failure? = some e →
    ∃ c₁ c₂, Run s generate c₀ before c₁ ∧ Step s generate c₁ i event c₂ ∧
      Run s generate c₂ after c ∧ Reported s generate i e c₁ c₂ after
  /-- Any step that a caller can take continues the run. -/
  goes_on : ∀ {i : Nat} {c' : Cache σ}, c.step s generate i = some c' →
    ∃ event, Run s generate c₀ (events ++ [(i, event)]) c'
  /-- It can be continued until all callers have a result, with three steps a caller at most. -/
  ends : ∃ later c', Run s generate c₀ (events ++ later) c' ∧
    (∀ caller ∈ c'.callers, caller.result?.isSome) ∧ (events ++ later).length ≤ 3 * c₀.callers.length

theorem mem_loaded {bundle : Bundle} (h : ∃ x ∈ events, x.2.loaded? = some bundle) :
    ∃ j, (j, .found bundle) ∈ events ∨ (j, .stored bundle) ∈ events := by
  obtain ⟨⟨j, event⟩, hx, hloaded⟩ := h
  cases event with
  | found => cases hloaded; exact ⟨j, .inl hx⟩
  | stored => cases hloaded; exact ⟨j, .inr hx⟩
  | _ => cases hloaded

theorem not_finished_start {store : σ} {n i : Nat} {r : Except Error Bundle} :
    (start store n).callers[i]? ≠ some (.finished r) := fun h => by
  cases List.eq_of_mem_replicate (List.mem_of_getElem? h)

end Cache

open Cache

/-- However the callers of a cache take turns and whatever the store answers, they share the bundle of
the one load that succeeds, and all of them come to an end. -/
theorem cache_loads_once {σ : Type} {s : Store σ} {generate : σ → σ × Except Error Bundle} {store : σ}
    {n : Nat} {events : List (Nat × Event)} {c : Cache σ}
    (h : Run s generate (start store n) events c) :
    LoadsOnce s generate (start store n) events c := by
  have hc := sound_start store n
  refine ⟨fun hi hj => ?_, fun {before after i event bundle} hevents hresult => ?_,
    fun {before after i event bundle} hevents hresult => ?_, fun hcached => ?_,
    fun {before after i bundle e} hevents j bundle' hj => ?_, h.countP_loaded_le hc, ?_,
    fun {i e} => ?_, fun hevents hfails => ?_, h.exists_step, ?_⟩
  · exact Option.some.inj (((h.sound hc).same hi).symm.trans ((h.sound hc).same hj))
  · subst hevents
    obtain ⟨c₀, c₁, hbefore, hstep, hafter⟩ := h.at_event
    obtain ⟨hshared, -, hstore⟩ := hafter.shared_of_cached (hstep.sound (hbefore.sound hc))
      (hstep.cached_of_result? hresult)
    exact ⟨hshared, c₁, hbefore.snoc hstep, hstore⟩
  · subst hevents
    obtain ⟨c₀, c₁, hbefore, hstep, -⟩ := h.at_event
    exact mem_loaded (((hbefore.snoc hstep).loaded_of_cached (hstep.cached_of_result? hresult)).resolve_left nofun)
  · exact mem_loaded ((h.loaded_of_cached hcached).resolve_left nofun)
  · subst hevents
    obtain ⟨c₀, c₁, hbefore, hstep, hafter⟩ := h.at_event
    have hcached := (hstep.reported (hbefore.sound hc) rfl hafter).cached
    refine mem_loaded ((hafter.loaded_of_cached ((h.sound hc).same hj)).resolve_left fun hb => ?_)
    rw [hcached] at hb
    cases hb
  · refine Nat.le_trans (List.countP_mono_left fun x _ hx => ?_) (h.countP_loaded_le hc)
    exact Event.isSome_loaded?_of_isStored hx
  · rw [h.finished_iff, or_iff_right not_finished_start]
    exact exists_congr fun event => and_congr_right fun _ =>
      ⟨Event.failure?_of_result?, Event.result?_of_failure?⟩
  · subst hevents
    obtain ⟨c₁, c₂, hbefore, hstep, hafter⟩ := h.at_event
    exact ⟨c₁, c₂, hbefore, hstep, hafter, hstep.reported (hbefore.sound hc) hfails hafter⟩
  · obtain ⟨later, c', hlater, hdone⟩ := exists_run_finished s generate c
    have hrun : Run s generate (start store n) (events ++ later) c' := run_append_iff.2 ⟨c, h, hlater⟩
    exact ⟨later, c', hrun, hdone, hrun.length_le⟩

/-- The store does not take the first bundle. The caller that made it has the error, and the other two
share the bundle of the second load. -/
theorem cache_loads_once_after_failed_put :
    let s := Vault.store "demo"
    let generate := fun (v : Vault) => (v, (Except.ok Vault.generated : Except Error Bundle))
    let failed : Error := .secrets "disk full"
    let store : Vault := { gets := [], puts := [.fails failed, .works] }
    let events : List (Nat × Event) :=
      [(1, .begun), (1, .made Vault.generated), (1, .unstored Vault.generated failed), (0, .begun),
        (0, .made Vault.generated), (0, .stored Vault.generated), (2, .shared Vault.generated)]
    ∃ c, Run s generate (start store 3) events c ∧ LoadsOnce s generate (start store 3) events c := by
  intro s generate failed store events
  have h : ∃ c, Run s generate (start store 3) events c :=
    ⟨_, .cons (.begun rfl rfl rfl) (.cons (.made rfl rfl rfl) (.cons (.unstored rfl rfl)
      (.cons (.begun rfl rfl rfl) (.cons (.made rfl rfl rfl) (.cons (.stored rfl rfl)
        (.cons (.shared rfl rfl rfl) .nil))))))⟩
  obtain ⟨c, h⟩ := h
  exact ⟨c, h, cache_loads_once h⟩

end Rollout
