import Mathlib.Tactic.ByContra
import Rollout.Secrets.Cache

/-!
# The steps of the secrets cache

`Cache.Step` lists what a step of a caller can do, with the event that it is: the store is asked, a
bundle is made or stored, or the cached one is shared. `Cache.Sound` is what every step keeps, whoever
takes it: one caller at a time is loading, nobody is once a bundle is cached, and who has a bundle has
the cached one.
-/

namespace Rollout

namespace Caller

def left : Caller → Nat
  | waiting => 3
  | reading => 2
  | storing _ => 1
  | finished _ => 0

def total : List Caller → Nat
  | [] => 0
  | caller :: rest => caller.left + total rest

theorem total_set_lt {callers : List Caller} {i : Nat} {before after : Caller}
    (hi : callers[i]? = some before) (hlt : after.left < before.left) :
    total (callers.set i after) < total callers := by
  induction callers generalizing i with
  | nil => cases hi
  | cons caller callers ih =>
    cases i with
    | zero =>
      cases hi
      exact Nat.add_lt_add_right hlt _
    | succ i => exact Nat.add_lt_add_left (ih hi) _

/-- A caller takes three steps at most. -/
theorem total_le (callers : List Caller) : total callers ≤ 3 * callers.length := by
  induction callers with
  | nil => exact Nat.le_refl 0
  | cons caller callers ih =>
    have hleft : caller.left ≤ 3 := by cases caller <;> simp [left]
    rw [total, List.length_cons]
    omega

theorem result?_eq_some_iff {caller : Caller} {r : Except Error Bundle} :
    caller.result? = some r ↔ caller = .finished r := by
  cases caller <;> simp [result?]

end Caller

namespace Cache

variable {σ : Type}

/-- What a step does, besides taking the lock and giving it back. -/
inductive Event where
  /-- The caller gets the cached bundle. -/
  | shared (bundle : Bundle)
  /-- Nothing is cached, and a load begins. -/
  | begun
  /-- The store has a bundle. -/
  | found (bundle : Bundle)
  | unread (e : Error)
  /-- The store has none, and one is generated. -/
  | made (bundle : Bundle)
  | unmade (e : Error)
  /-- The store takes the bundle that was generated. -/
  | stored (bundle : Bundle)
  | unstored (bundle : Bundle) (e : Error)

namespace Event

def loaded? : Event → Option Bundle
  | found bundle => some bundle
  | stored bundle => some bundle
  | _ => none

def failure? : Event → Option Error
  | unread e => some e
  | unmade e => some e
  | unstored _ e => some e
  | _ => none

def isStored : Event → Bool
  | stored _ => true
  | _ => false

/-- What the caller returns, if it is done. -/
def result? : Event → Option (Except Error Bundle)
  | shared bundle => some (.ok bundle)
  | found bundle => some (.ok bundle)
  | stored bundle => some (.ok bundle)
  | unread e => some (.error e)
  | unmade e => some (.error e)
  | unstored _ e => some (.error e)
  | _ => none

theorem isSome_loaded?_of_isStored {event : Event} (h : event.isStored = true) :
    event.loaded?.isSome = true := by
  cases event <;> simp_all [isStored, loaded?]

theorem result?_of_loaded? {event : Event} {bundle : Bundle} (h : event.loaded? = some bundle) :
    event.result? = some (.ok bundle) := by
  cases event <;> simp_all [loaded?, result?]

theorem result?_of_failure? {event : Event} {e : Error} (h : event.failure? = some e) :
    event.result? = some (.error e) := by
  cases event <;> simp_all [failure?, result?]

theorem failure?_of_result? {event : Event} {e : Error} (h : event.result? = some (.error e)) :
    event.failure? = some e := by
  cases event <;> simp_all [failure?, result?]

end Event

inductive Step (s : Store σ) (generate : σ → σ × Except Error Bundle) (c : Cache σ) (i : Nat) :
    Event → Cache σ → Prop
  | shared {bundle : Bundle} (hi : c.callers[i]? = some .waiting) (hlock : c.isLocked = false)
      (hcached : c.cached = some bundle) :
      Step s generate c i (.shared bundle) (c.setCaller i (.finished (.ok bundle)))
  | begun (hi : c.callers[i]? = some .waiting) (hlock : c.isLocked = false) (hcached : c.cached = none) :
      Step s generate c i .begun (c.setCaller i .reading)
  | found {store : σ} {bundle : Bundle} (hi : c.callers[i]? = some .reading)
      (hget : s.get c.store = (store, .ok (some bundle))) :
      Step s generate c i (.found bundle) ({ c with store }.keep i bundle)
  | unread {store : σ} {e : Error} (hi : c.callers[i]? = some .reading)
      (hget : s.get c.store = (store, .error e)) :
      Step s generate c i (.unread e) ({ c with store }.setCaller i (.finished (.error e)))
  | made {asked store : σ} {bundle : Bundle} (hi : c.callers[i]? = some .reading)
      (hget : s.get c.store = (asked, .ok none)) (hmade : generate asked = (store, .ok bundle)) :
      Step s generate c i (.made bundle) ({ c with store }.setCaller i (.storing bundle))
  | unmade {asked store : σ} {e : Error} (hi : c.callers[i]? = some .reading)
      (hget : s.get c.store = (asked, .ok none)) (hmade : generate asked = (store, .error e)) :
      Step s generate c i (.unmade e) ({ c with store }.setCaller i (.finished (.error e)))
  | stored {store : σ} {bundle : Bundle} (hi : c.callers[i]? = some (.storing bundle))
      (hput : s.put c.store bundle = (store, .ok ())) :
      Step s generate c i (.stored bundle) ({ c with store }.keep i bundle)
  | unstored {store : σ} {bundle : Bundle} {e : Error} (hi : c.callers[i]? = some (.storing bundle))
      (hput : s.put c.store bundle = (store, .error e)) :
      Step s generate c i (.unstored bundle e) ({ c with store }.setCaller i (.finished (.error e)))

variable {s : Store σ} {generate : σ → σ × Except Error Bundle} {c c' : Cache σ} {i : Nat}
  {event : Event}

theorem Step.step_eq (h : Step s generate c i event c') : c.step s generate i = some c' := by
  cases h <;> simp_all [step]

theorem step_iff : c.step s generate i = some c' ↔ ∃ event, Step s generate c i event c' := by
  refine ⟨fun h => ?_, fun ⟨_, h⟩ => h.step_eq⟩
  unfold step at h
  split at h
  · cases h
  · cases h
  · next hi =>
    split at h
    · cases h
    · next hlock =>
      have hlock : c.isLocked = false := by simpa using hlock
      split at h <;> cases h
      · next hcached => exact ⟨_, .shared hi hlock hcached⟩
      · next hcached => exact ⟨_, .begun hi hlock hcached⟩
  · next hi =>
    split at h
    · next hget => cases h; exact ⟨_, .unread hi hget⟩
    · next hget => cases h; exact ⟨_, .found hi hget⟩
    · next hget =>
      split at h <;> cases h
      · next hmade => exact ⟨_, .unmade hi hget hmade⟩
      · next hmade => exact ⟨_, .made hi hget hmade⟩
  · next hi =>
    split at h <;> cases h
    · next hput => exact ⟨_, .unstored hi hput⟩
    · next hput => exact ⟨_, .stored hi hput⟩

/-! ## The callers -/

theorem isLocked_eq_false_iff :
    c.isLocked = false ↔ ∀ (i : Nat) (caller : Caller), c.callers[i]? = some caller → caller.isBusy = false := by
  simp only [isLocked, List.any_eq_false, List.mem_iff_getElem?, Bool.not_eq_true]
  exact ⟨fun h i caller hi => h caller ⟨i, hi⟩, fun h caller ⟨i, hi⟩ => h i caller hi⟩

theorem Step.callers_eq (h : Step s generate c i event c') :
    ∃ before after, c.callers[i]? = some before ∧ before.result? = none ∧
      c'.callers = c.callers.set i after ∧ after.result? = event.result? := by
  cases h with
  | shared hi => exact ⟨_, _, hi, rfl, rfl, rfl⟩
  | begun hi => exact ⟨_, _, hi, rfl, rfl, rfl⟩
  | found hi => exact ⟨_, _, hi, rfl, rfl, rfl⟩
  | unread hi => exact ⟨_, _, hi, rfl, rfl, rfl⟩
  | made hi => exact ⟨_, _, hi, rfl, rfl, rfl⟩
  | unmade hi => exact ⟨_, _, hi, rfl, rfl, rfl⟩
  | stored hi => exact ⟨_, _, hi, rfl, rfl, rfl⟩
  | unstored hi => exact ⟨_, _, hi, rfl, rfl, rfl⟩

/-- A caller is done with a result if it was before, or if the step is its own and gives that result. -/
theorem Step.finished_iff (h : Step s generate c i event c') {j : Nat} {r : Except Error Bundle} :
    c'.callers[j]? = some (.finished r) ↔
      c.callers[j]? = some (.finished r) ∨ j = i ∧ event.result? = some r := by
  obtain ⟨before, after, hbefore, hnone, hcallers, hafter⟩ := h.callers_eq
  obtain ⟨hlt, -⟩ := List.getElem?_eq_some_iff.1 hbefore
  rw [hcallers]
  by_cases hj : j = i
  · subst hj
    rw [List.getElem?_set_self hlt, hbefore, ← hafter, Caller.result?_eq_some_iff]
    simp only [Option.some.injEq, true_and, iff_or_self]
    rintro rfl
    cases hnone
  · rw [List.getElem?_set_ne (Ne.symm hj)]
    simp [hj]

theorem Step.total_lt (h : Step s generate c i event c') :
    Caller.total c'.callers < Caller.total c.callers := by
  cases h with
  | shared hi => exact Caller.total_set_lt hi (Nat.zero_lt_succ 2)
  | begun hi => exact Caller.total_set_lt hi (Nat.lt_succ_self 2)
  | found hi => exact Caller.total_set_lt hi (Nat.zero_lt_succ 1)
  | unread hi => exact Caller.total_set_lt hi (Nat.zero_lt_succ 1)
  | made hi => exact Caller.total_set_lt hi (Nat.lt_succ_self 1)
  | unmade hi => exact Caller.total_set_lt hi (Nat.zero_lt_succ 1)
  | stored hi => exact Caller.total_set_lt hi Nat.zero_lt_one
  | unstored hi => exact Caller.total_set_lt hi Nat.zero_lt_one

/-! ## What every step keeps -/

structure Sound (c : Cache σ) : Prop where
  /-- One caller at a time has left the queue and not finished. -/
  exclusive : ∀ {i j : Nat} {caller caller' : Caller}, c.callers[i]? = some caller →
    c.callers[j]? = some caller' → caller.isBusy = true → caller'.isBusy = true → i = j
  idle : ∀ {bundle : Bundle}, c.cached = some bundle → c.isLocked = false
  same : ∀ {i : Nat} {bundle : Bundle}, c.callers[i]? = some (.finished (.ok bundle)) →
    c.cached = some bundle

/-- If the caller that holds the lock, or takes it while nobody does, is set anew, at most that caller
is loading. -/
theorem eq_of_busy_set {caller caller' : Caller} {j : Nat}
    (hi : ∀ j caller, c.callers[j]? = some caller → caller.isBusy = true → j = i)
    (hj : (c.callers.set i caller)[j]? = some caller') (hbusy : caller'.isBusy = true) : j = i := by
  by_contra hne
  rw [List.getElem?_set_ne (Ne.symm hne)] at hj
  exact hne (hi _ _ hj hbusy)

theorem not_busy_set {caller caller' : Caller} {j : Nat}
    (hi : ∀ j caller, c.callers[j]? = some caller → caller.isBusy = true → j = i)
    (hcaller : caller.isBusy = false) (hj : (c.callers.set i caller)[j]? = some caller') :
    caller'.isBusy = false := by
  by_contra hbusy
  have hbusy : caller'.isBusy = true := by simpa using hbusy
  obtain rfl := eq_of_busy_set hi hj hbusy
  rw [List.getElem?_set] at hj
  simp only [if_true] at hj
  split at hj <;> simp_all

theorem Step.eq_of_busy (h : Step s generate c i event c') (hc : c.Sound) {j : Nat} {caller : Caller}
    (hj : c.callers[j]? = some caller) (hbusy : caller.isBusy = true) : j = i := by
  have hlocked (hlock : c.isLocked = false) : j = i := by
    rw [isLocked_eq_false_iff.1 hlock j caller hj] at hbusy
    cases hbusy
  cases h with
  | shared _ hlock => exact hlocked hlock
  | begun _ hlock => exact hlocked hlock
  | found hi => exact hc.exclusive hj hi hbusy rfl
  | unread hi => exact hc.exclusive hj hi hbusy rfl
  | made hi => exact hc.exclusive hj hi hbusy rfl
  | unmade hi => exact hc.exclusive hj hi hbusy rfl
  | stored hi => exact hc.exclusive hj hi hbusy rfl
  | unstored hi => exact hc.exclusive hj hi hbusy rfl

/-- A step of a caller that is loading means that nothing is cached. -/
theorem Sound.cached_eq_none (hc : c.Sound) {caller : Caller} (hi : c.callers[i]? = some caller)
    (hbusy : caller.isBusy = true) : c.cached = none := by
  by_contra hne
  obtain ⟨bundle, hcached⟩ := Option.ne_none_iff_exists'.1 hne
  rw [isLocked_eq_false_iff.1 (hc.idle hcached) i caller hi] at hbusy
  cases hbusy

theorem Step.cached_eq (h : Step s generate c i event c') :
    c'.cached = event.loaded?.or c.cached := by
  cases h <;> rfl

/-- Once something is cached it is shared, and neither the store nor the cached bundle is touched. -/
theorem Step.shared_of_cached (h : Step s generate c i event c') (hc : c.Sound) {bundle : Bundle}
    (hcached : c.cached = some bundle) :
    event = .shared bundle ∧ c'.cached = some bundle ∧ c'.store = c.store := by
  have hnone {caller : Caller} (hi : c.callers[i]? = some caller) (hbusy : caller.isBusy = true) :
      event = .shared bundle ∧ c'.cached = some bundle ∧ c'.store = c.store := by
    rw [hc.cached_eq_none hi hbusy] at hcached
    cases hcached
  cases h with
  | shared _ _ hb =>
    obtain rfl := Option.some.inj (hb.symm.trans hcached)
    exact ⟨rfl, hcached, rfl⟩
  | begun _ _ hb => rw [hb] at hcached; cases hcached
  | found hi => exact hnone hi rfl
  | unread hi => exact hnone hi rfl
  | made hi => exact hnone hi rfl
  | unmade hi => exact hnone hi rfl
  | stored hi => exact hnone hi rfl
  | unstored hi => exact hnone hi rfl

theorem Step.cached_of_result? (h : Step s generate c i event c') {bundle : Bundle}
    (hresult : event.result? = some (.ok bundle)) : c'.cached = some bundle := by
  cases h with
  | shared _ _ hcached => cases hresult; exact hcached
  | found => cases hresult; rfl
  | stored => cases hresult; rfl
  | begun => cases hresult
  | unread => cases hresult
  | made => cases hresult
  | unmade => cases hresult
  | unstored => cases hresult

/-- The caller of a step that is its last gives the lock back. -/
theorem Step.isLocked_of_result? (h : Step s generate c i event c') (hc : c.Sound)
    {r : Except Error Bundle} (hresult : event.result? = some r) : c'.isLocked = false := by
  obtain ⟨before, after, -, -, hcallers, hafter⟩ := h.callers_eq
  rw [hresult, Caller.result?_eq_some_iff] at hafter
  rw [isLocked_eq_false_iff, hcallers]
  subst hafter
  exact fun j caller hj => not_busy_set (fun _ _ => h.eq_of_busy hc) rfl hj

theorem Step.sound (h : Step s generate c i event c') (hc : c.Sound) : c'.Sound where
  exclusive {j k} _ _ hj hk hjb hkb := by
    obtain ⟨-, after, -, -, hcallers, -⟩ := h.callers_eq
    rw [hcallers] at hj hk
    rw [eq_of_busy_set (fun _ _ => h.eq_of_busy hc) hj hjb,
      eq_of_busy_set (fun _ _ => h.eq_of_busy hc) hk hkb]
  idle {bundle} hcached := by
    rcases hloaded : event.loaded? with _ | loaded
    · rw [h.cached_eq, hloaded] at hcached
      obtain ⟨rfl, -⟩ := h.shared_of_cached hc hcached
      exact h.isLocked_of_result? hc rfl
    · exact h.isLocked_of_result? hc (Event.result?_of_loaded? hloaded)
  same {j bundle} hj := by
    rcases h.finished_iff.1 hj with hold | ⟨rfl, hresult⟩
    · exact (h.shared_of_cached hc (hc.same hold)).2.1
    · exact h.cached_of_result? hresult

end Cache
end Rollout
