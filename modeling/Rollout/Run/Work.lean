import Rollout.Request

/-!
# Work

A run is a sequence of calls to the world around it, on a clock that only moves while something is
waited for. `Environment` is any such world: for each call it says how long the answer takes and what
it is, as a function of all that happened before. It also settles what a run leaves to chance, which of
several things that are ready at the same instant is taken first. `Work` is what the orchestrators are
written in; running it gives the result, the end time and the journal of all calls and answers.

An answer may never come. Work under a time limit is then cut off at the limit, work without one
never ends; both are `Stop.overdue`. Work that goes on and on without waiting has no result at all.
-/

namespace Rollout

/-- How a call is served: `begun` is the world when the call has been made, `finish` what changes when
the answer arrives, `delay` later. Without a delay the answer never arrives, and a call that is
abandoned before it arrives is not finished. -/
structure Service (σ : Type) (c : Call) where
  begun : σ
  delay : Option Duration
  finish : σ → σ × c.Result

/-- What a watch over a stream of events waits for at once. -/
inductive Branch where
  | timer
  | signal
  | item
  deriving DecidableEq, Repr

/-- `favours` is the branch that a watch takes if it is ready at the same instant as others. The program
takes any that is ready, and another each time it looks: so this is told by the world and the time the
watch begins in, and by how often it has looked. -/
structure Environment (σ : Type) where
  serve : σ → Instant → (c : Call) → Service σ c
  favours : σ → Instant → Nat → Branch := fun _ _ _ => .timer

inductive Entry where
  | sent (time : Instant) (call : Call)
  | answered (time : Instant) (call : Call) (result : call.Result)

abbrev Journal := Array Entry

structure World (σ : Type) where
  now : Instant := 0
  state : σ
  /-- How many connections have been made. -/
  connections : Nat := 0
  journal : Journal := #[]

/-- The world with the clock moved on to `time`, never back. -/
def World.advance {σ : Type} (w : World σ) (time : Instant) : World σ :=
  { w with now := max w.now time }

/-- When the operator cancels the run. -/
inductive Signal where
  | never
  | atTime (time : Instant)
  /-- When the first event subscription is sent. -/
  | onWatch
  deriving DecidableEq, Repr

def Entry.watchTime? : Entry → Option Instant
  | sent time (.request _ .watch) => some time
  | _ => none

/-- The time at which the signal is raised, as far as the journal tells. -/
def Signal.raisedAt? (journal : Journal) : Signal → Option Instant
  | never => none
  | atTime time => some time
  | onWatch => journal.findSome? Entry.watchTime?

structure Setting (σ : Type) where
  environment : Environment σ
  cluster : Cluster
  /-- In visiting order. -/
  nodes : List Node
  signal : Signal := .never
  limit : Option Instant := none

/-- The setting of a run over nodes in any order. -/
def Setting.over {σ : Type} (environment : Environment σ) (cluster : Cluster) (nodes : List Node)
    (signal : Signal) : Setting σ :=
  { environment, cluster, nodes := Node.inOrder nodes, signal }

inductive Stop where
  | error (e : Error)
  | overdue

abbrev Work (σ α : Type) := ReaderT (Setting σ) (ExceptT Stop (StateT (World σ) Option)) α

namespace Work

variable {σ α ε : Type}

/-- The result of the work and the world after it; nothing if it goes on for ever. -/
def result? (work : Work σ α) (setting : Setting σ) (w : World σ) : Option (Except Stop α × World σ) :=
  (work.run setting).run.run w

def fail (e : Error) : Work σ α := throw (.error e)

def ofExcept : Except Error α → Work σ α
  | .ok a => pure a
  | .error e => fail e

def clock : Work σ Instant := return (← get).now

def record (e : Entry) : Work σ Unit := modify fun w => { w with journal := w.journal.push e }

/-- When the signal was or will be raised, if that is known. -/
def raisedAt? : Work σ (Option Instant) := do
  return (← read).signal.raisedAt? (← get).journal

/-- The branches that a watch favours which begins now. -/
def favours : Work σ (Nat → Branch) := do
  return (← read).environment.favours (← get).state (← get).now

def cancelled : Work σ Bool := do
  let now ← clock
  return match ← raisedAt? with
    | some time => time ≤ now
    | none => false

def advance (time : Instant) : Work σ Unit := modify (·.advance time)

/-- Waits until `time`; at the limit the work is cut off. Without a time it waits for ever. -/
def waitUntil (time : Option Instant) : Work σ Unit := do
  match time, (← read).limit with
  | some t, none => advance t
  | some t, some l =>
    if t ≤ l then advance t
    else
      advance l
      throw .overdue
  | none, none => throw .overdue
  | none, some l =>
    advance l
    throw .overdue

def call (c : Call) : Work σ c.Result := do
  let now ← clock
  record (.sent now c)
  let service := (← read).environment.serve (← get).state now c
  modify fun w => { w with state := service.begun }
  waitUntil (service.delay.map (now + ·))
  let (state, result) := service.finish (← get).state
  modify fun w => { w with state := state }
  record (.answered (← clock) c result)
  return result

def connect (node : Node) : Work σ (Except Error Client) := do
  match ← call (.connect node) with
  | .error e => return .error e
  | .ok channel =>
    let number := (← get).connections
    modify fun w => { w with connections := number + 1 }
    return .ok ⟨node, number, channel⟩

def request (client : Client) (r : Request) : Work σ (Except ApiError r.Reply) :=
  call (.request client r)

def display (text : String) : Work σ Unit := do
  let _ ← call (.display text)

/-- Asks the operator; a question that cannot be asked fails the work. -/
def ask (question : String) : Work σ Bool := do
  ofExcept (← call (.ask question))

/-- Does the work under a limit of `d` from now: nothing if it does not end in time. An answer that
comes exactly at the limit is in time. -/
def within (d : Duration) (work : Work σ α) : Work σ (Option α) := fun setting => ExceptT.mk do
  let now := (← get).now
  match ← (work { setting with limit := some (now + d) }).run with
  | .ok a => return .ok (some a)
  | .error .overdue => return .ok none
  | .error e => return .error e

/-- Sleeps for `d` or until the signal is raised. Says whether it was raised. -/
def pause (d : Duration) : Work σ Bool := do
  let now ← clock
  match ← raisedAt? with
  | some time =>
    if time ≤ now + d then
      waitUntil (some (max now time))
      return true
    else
      waitUntil (some (now + d))
      return false
  | none =>
    waitUntil (some (now + d))
    return false

/-- Does the work again and again until it gives a value; it may go on for ever. -/
def untilSome (work : Work σ (Option α)) : Work σ α := go
where
  go : Work σ α := fun setting w =>
    match work.result? setting w with
    | some (.ok none, w) => (go.run setting).run.run w
    | some (.ok (some a), w) => some (.ok a, w)
    | some (.error e, w) => some (.error e, w)
    | none => none
  partial_fixpoint

/-- Stops with `cancelled` once the signal has been raised. -/
def checkpoint : Work σ Unit := do
  if ← cancelled then fail .cancelled

end Work
end Rollout
