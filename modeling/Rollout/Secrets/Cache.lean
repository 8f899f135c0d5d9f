import Rollout.Secrets.Bundle

/-!
# The secrets of a run

A run needs the bundle of its cluster at most once from the store. Whoever needs it first loads it, and
if the store has none, generates one and stores it; the others wait and get the same. A bundle counts as
loaded only once the store has it, and a load that fails is tried again by the next who needs it.

`Cache` is the state between any two steps of any number of callers, `Cache.step` one step of one of
them. Only one caller at a time has left the queue and not finished.
-/

namespace Rollout

structure Store (σ : Type) where
  get : σ → σ × Except Error (Option Bundle)
  put : σ → Bundle → σ × Except Error Unit

/-- What a caller of the cache is at. -/
inductive Caller where
  | waiting
  | reading
  | storing (bundle : Bundle)
  | finished (result : Except Error Bundle)

namespace Caller

def isBusy : Caller → Bool
  | reading => true
  | storing _ => true
  | _ => false

def result? : Caller → Option (Except Error Bundle)
  | finished r => some r
  | _ => none

end Caller

structure Cache (σ : Type) where
  store : σ
  cached : Option Bundle := none
  callers : List Caller := []

namespace Cache

variable {σ : Type}

def isLocked (c : Cache σ) : Bool := c.callers.any Caller.isBusy

def setCaller (c : Cache σ) (i : Nat) (caller : Caller) : Cache σ :=
  { c with callers := c.callers.set i caller }

/-- The cache once caller `i` has the bundle. -/
def keep (c : Cache σ) (i : Nat) (bundle : Bundle) : Cache σ :=
  { c with cached := some bundle }.setCaller i (.finished (.ok bundle))

/-- The step of caller `i`, if it has one. `generate` makes the bundle for a store that has none; it can
fail, and need not come to the same twice. -/
def step (s : Store σ) (generate : σ → σ × Except Error Bundle) (c : Cache σ) (i : Nat) :
    Option (Cache σ) :=
  match c.callers[i]? with
  | none => none
  | some (.finished _) => none
  | some .waiting =>
    if c.isLocked then none
    else match c.cached with
      | some bundle => some (c.setCaller i (.finished (.ok bundle)))
      | none => some (c.setCaller i .reading)
  | some .reading =>
    match s.get c.store with
    | (store, .error e) => some ({ c with store }.setCaller i (.finished (.error e)))
    | (store, .ok (some bundle)) => some ({ c with store }.keep i bundle)
    | (store, .ok none) =>
      match generate store with
      | (store, .error e) => some ({ c with store }.setCaller i (.finished (.error e)))
      | (store, .ok bundle) => some ({ c with store }.setCaller i (.storing bundle))
  | some (.storing bundle) =>
    match s.put c.store bundle with
    | (store, .error e) => some ({ c with store }.setCaller i (.finished (.error e)))
    | (store, .ok ()) => some ({ c with store }.keep i bundle)

/-- All steps of caller `i`; there are at most three. -/
def serve (s : Store σ) (generate : σ → σ × Except Error Bundle) (c : Cache σ) (i : Nat) : Cache σ :=
  let next (c : Cache σ) := (c.step s generate i).getD c
  next (next (next c))

/-- Serves `n` callers that come at the same time, in order. -/
def serveAll (s : Store σ) (generate : σ → σ × Except Error Bundle) (c : Cache σ) (n : Nat) :
    Cache σ :=
  (List.range n).foldl (serve s generate) { c with callers := List.replicate n .waiting }

/-- The bundle for a single caller. -/
def get (s : Store σ) (generate : σ → σ × Except Error Bundle) (store : σ) (cached : Option Bundle) :
    σ × Option Bundle × Except Error Bundle :=
  let c := serveAll s generate { store, cached } 1
  let result := match c.callers with
    | [.finished r] => r
    | _ => .error .cancelled
  (c.store, c.cached, result)

end Cache
end Rollout
