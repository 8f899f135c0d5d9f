import Rollout.Proofs.Gather.Places
import Rollout.Proofs.Gather.Steps
import Rollout.Proofs.Run.Histories

/-!
# What a record accounts for

A record is made from the answers of its node, and they can be read off it again: a field is what the node
has replied or, as long as it has not, what it was in the beginning. `Observation.Accounts` says so of a
record and a history, and how both end: with a configuration, or with a failure that names its step, behind
which nothing is called any more.
-/

namespace Rollout

/-! ## What entries tell -/

namespace Entry

def status? : Entry → Option Status
  | answered _ (.request _ .status) (.ok status) => some status
  | _ => none

def schematic? : Entry → Option String
  | answered _ (.request _ .extensions) (.ok extensions) => some (Observation.schematicOf extensions)
  | _ => none

def osVersion? : Entry → Option String
  | answered _ (.request _ .osVersion) (.ok version) => some version
  | _ => none

def config? : Entry → Option Bytes
  | answered _ (.render _) (.ok config) => some config
  | _ => none

def error? : Entry → Option Error
  | answered _ (.connect _) (.error e) => some e
  | answered _ (.request _ _) (.error e) => some (.api e)
  | answered _ (.render _) (.error e) => some e
  | _ => none

end Entry

/-- These calls have been made, each answered before the next. -/
inductive Exchanges : List Call → List Entry → Prop
  | nil : Exchanges [] []
  | snoc {calls es} (c : Call) (t t' : Instant) (a : c.Result) (h : Exchanges calls es) :
      Exchanges (calls ++ [c]) (es ++ exchange c t t' a)

/-- The calls by which the node of a connection is observed. -/
def Client.observing (client : Client) : List Call :=
  [.connect client.node, .request client .status, .request client .extensions,
    .request client .osVersion, .render client.node]

/-- The record says what the history says, and nothing else. -/
structure Observation.Accounts (o : Observation) (es : List Entry) : Prop where
  /-- There is either a configuration or a failure. -/
  one : o.config = none ↔ o.failure ≠ none
  /-- Everything has been asked, or everything up to the failure. -/
  calls : ∃ (client : Client) (calls : List Call), client.node = o.node ∧ Exchanges calls es ∧
    calls <+: client.observing ∧ (o.failure = none → calls = client.observing)
  /-- A failure names the step that failed and has its error in it. That step is the last. -/
  failed : ∀ e, o.failure = some e →
    ∃ before t t' cause, ∃ (step : Step) (result : (step.call o.node).Result),
      es = before ++ exchange (step.call o.node) t t' result ∧
      (Entry.answered t' (step.call o.node) result).error? = some cause ∧
      e = .gather step.text cause ∧ ∀ x ∈ before, x.error? = none
  succeeded : o.failure = none → ∀ x ∈ es, x.error? = none
  status : (⟨o.stage, o.readiness⟩ : Status) = (es.findSome? Entry.status?).getD ⟨.unknown, {}⟩
  schematic : o.schematic = (es.findSome? Entry.schematic?).getD ""
  osVersion : o.osVersion = (es.findSome? Entry.osVersion?).getD ""
  config : o.config = es.findSome? Entry.config?

theorem Observation.advance_cases {o o' : Observation} {number : ℕ} {step : Step}
    {result : (step.call o.node).Result} (h : o.advance number step result = (o', none)) (t : Instant) :
    (∃ cause, (Entry.answered t (step.call o.node) result).error? = some cause ∧
      o' = { o with failure := some (.gather step.text cause) }) ∨
    step.remaining = 1 ∧ (Entry.answered t (step.call o.node) result).error? = none ∧
      ∃ config, o' = { o with config := some config } := by
  cases step <;> cases result <;> cases h
  all_goals first
    | exact .inl ⟨_, rfl, rfl⟩
    | exact .inr ⟨rfl, rfl, _, rfl⟩

namespace Observing

variable {node : Node} {es : List Entry} {a : Observation.Advance} {o : Observation}
  {step : Observation.Step}

/-! ## The calls -/

/-- Before a step everything has been asked that precedes it in observing, without an error. -/
theorem exchanges (h : Observing node es (o, some step)) :
    ∃ client : Client, client.node = node ∧
      Exchanges (client.observing.take (5 - step.remaining)) es ∧
      client.observing[5 - step.remaining]? = some (step.call node) := by
  generalize ha : (o, some step) = a at h
  induction h generalizing o step with
  | begun =>
    cases ha
    exact ⟨⟨node, 0, .mutual⟩, rfl, .nil, rfl⟩
  | @told es o' step' t t' number result h ih =>
    obtain ⟨client, rfl, hes, hcall⟩ := ih rfl
    have hnode : o'.node = client.node := h.node_eq
    have hmore := hes.snoc (step'.call o'.node) t t' result
    cases step' <;> cases result <;> simp only [Observation.advance, Observation.failed] at ha <;>
      cases ha
    · -- Only now the connection is known.
      exact ⟨⟨o'.node, number, _⟩, hnode, hmore, rfl⟩
    all_goals
      obtain rfl : client = _ := by
        simpa [Client.observing, Observation.Step.remaining, Observation.Step.call] using hcall
      exact ⟨client, rfl, hmore, rfl⟩

theorem error?_eq_none (h : Observing node es (o, some step)) : ∀ x ∈ es, x.error? = none := by
  generalize ha : (o, some step) = a at h
  induction h generalizing o step with
  | begun => simp
  | @told es o' step' t t' number result h ih =>
    intro x hx
    rcases List.mem_append.1 hx with hx | hx
    · exact ih rfl x hx
    rcases mem_exchange.1 hx with rfl | rfl
    · rfl
    · cases step' <;> cases result <;> first | rfl | cases ha

theorem exists_step (h : Observing node es a) : ∀ x ∈ es, ∃ s : Observation.Step, x.call = s.call node := by
  induction h with
  | begun => simp
  | @told es o step t t' number result h ih =>
    intro x hx
    rcases List.mem_append.1 hx with hx | hx
    · exact ih x hx
    · have hnode : o.node = node := h.node_eq
      exact ⟨step, hnode ▸ call_of_mem_exchange hx⟩

/-! ## The fields -/

section

variable {β : Type} {told : Entry → Option β}

/-- A field that only the answer of one step can set holds what that answer tells. -/
theorem get_eq (get : Observation → β) (turn : ℕ) (hsent : ∀ t c, told (.sent t c) = none)
    (hadvance : ∀ (o : Observation) number (step : Observation.Step) t result,
      get (o.advance number step result).1 = (told (.answered t (step.call o.node) result)).getD (get o))
    (hturn : ∀ n t (step : Observation.Step) result,
      told (.answered t (step.call n) result) ≠ none → step.remaining = turn)
    (h : Observing node es a) : get a.1 = (es.findSome? told).getD (get { node }) := by
  induction h with
  | begun => rfl
  | @told es o step t t' number result h ih =>
    have hlast : (exchange (step.call o.node) t t' result).findSome? told =
        told (.answered t' (step.call o.node) result) := by
      simp [exchange, List.findSome?, hsent]
      cases told (.answered t' (step.call o.node) result) <;> rfl
    rw [hadvance o number step t' result, List.findSome?_append, hlast]
    cases hnew : told (.answered t' (step.call o.node) result) with
    | none => simpa using ih
    | some b =>
      have hbefore : es.findSome? told = none := by
        rw [List.findSome?_eq_none_iff]
        intro x hx
        by_contra hx'
        obtain ⟨s, hs⟩ := h.exists_step x hx
        have hlater : step.remaining < s.remaining := h.remaining_lt hx hs
        have hthis : step.remaining = turn := hturn _ _ _ _ (hnew ▸ Option.some_ne_none b)
        cases x with
        | sent t c => exact hx' (hsent t c)
        | answered t c result =>
          obtain rfl : c = s.call node := hs
          have hother : s.remaining = turn := hturn _ _ _ _ hx'
          omega
      simp [hbefore]

end

theorem status_eq (h : Observing node es a) :
    (⟨a.1.stage, a.1.readiness⟩ : Status) = (es.findSome? Entry.status?).getD ⟨.unknown, {}⟩ := by
  refine h.get_eq (fun o => (⟨o.stage, o.readiness⟩ : Status)) 4 (fun _ _ => rfl) ?_ ?_
  · intro o number step t result
    cases step <;> cases result <;> rfl
  · intro n t step result htold
    cases step <;> cases result <;> first | rfl | exact absurd rfl htold

theorem schematic_eq_getD (h : Observing node es a) :
    a.1.schematic = (es.findSome? Entry.schematic?).getD "" := by
  refine h.get_eq Observation.schematic 3 (fun _ _ => rfl) ?_ ?_
  · intro o number step t result
    cases step <;> cases result <;> rfl
  · intro n t step result htold
    cases step <;> cases result <;> first | rfl | exact absurd rfl htold

theorem osVersion_eq_getD (h : Observing node es a) :
    a.1.osVersion = (es.findSome? Entry.osVersion?).getD "" := by
  refine h.get_eq Observation.osVersion 2 (fun _ _ => rfl) ?_ ?_
  · intro o number step t result
    cases step <;> cases result <;> rfl
  · intro n t step result htold
    cases step <;> cases result <;> first | rfl | exact absurd rfl htold

theorem config_eq (h : Observing node es a) : a.1.config = es.findSome? Entry.config? := by
  have hget : a.1.config = (es.findSome? fun x => x.config?.map some).getD none := by
    refine h.get_eq Observation.config 1 (fun _ _ => rfl) ?_ ?_
    · intro o number step t result
      cases step <;> cases result <;> rfl
    · intro n t step result htold
      cases step <;> cases result <;> first | rfl | exact absurd rfl htold
  have hmap : (es.findSome? fun x => x.config?.map some) = (es.findSome? Entry.config?).map some :=
    List.map_findSome?.symm
  rw [hget, hmap]
  cases es.findSome? Entry.config? <;> rfl

/-! ## The whole record -/

theorem accounts (h : Observing node es (o, none)) : o.Accounts es := by
  have hstatus := h.status_eq
  have hschematic := h.schematic_eq_getD
  have hversion := h.osVersion_eq_getD
  have hconfig := h.config_eq
  generalize ha : (o, none) = a at h
  cases h with
  | begun => cases ha
  | @told es o' step t t' number result h =>
    obtain ⟨client, rfl, hes, hcall⟩ := h.exchanges
    obtain ⟨hnone, hfailure, -⟩ := h.pending
    have hclean := h.error?_eq_none
    have hnode : o'.node = client.node := h.node_eq
    have hcalls : client.observing.take (5 - step.remaining) ++ [step.call o'.node] =
        client.observing.take (5 - step.remaining + 1) := by
      rw [List.take_add_one, hcall, hnode]
      rfl
    have hall := hcalls ▸ hes.snoc (step.call o'.node) t t' result
    rcases Observation.advance_cases ha.symm t' with ⟨cause, hcause, rfl⟩ | ⟨hlast, hok, config, rfl⟩
    · exact
        { one := by simp [hnone]
          calls := ⟨client, _, hnode.symm, hall, List.take_prefix .., by simp⟩
          failed := by
            rintro _ ⟨⟩
            exact ⟨es, t, t', cause, step, result, rfl, hcause, rfl, hclean⟩
          succeeded := by simp
          status := hstatus
          schematic := hschematic
          osVersion := hversion
          config := hconfig }
    · have hwhole : client.observing.take (5 - step.remaining + 1) = client.observing := by
        rw [hlast]
        rfl
      exact
        { one := by simp [hfailure]
          calls := ⟨client, _, hnode.symm, hall, List.take_prefix .., fun _ => hwhole⟩
          failed := by simp [hfailure]
          succeeded := by
            intro _ x hx
            rcases List.mem_append.1 hx with hx | hx
            · exact hclean x hx
            · rcases mem_exchange.1 hx with rfl | rfl
              · rfl
              · exact hok
          status := hstatus
          schematic := hschematic
          osVersion := hversion
          config := hconfig }

end Observing

/-! ## Among others -/

theorem exists_related {α β : Type} {R : α → β → Prop} {xs : List α} {ys : List β}
    (h : List.Forall₂ R xs ys) {y : β} (hy : y ∈ ys) : ∃ x ∈ xs, R x y := by
  induction h with
  | nil => cases hy
  | cons hxy _ ih =>
    rcases List.mem_cons.1 hy with rfl | hy
    · exact ⟨_, List.mem_cons_self, hxy⟩
    · obtain ⟨x, hx, hxy⟩ := ih hy
      exact ⟨x, List.mem_cons_of_mem _ hx, hxy⟩

/-- A history that alone has entries of a kind is what the journal has of that kind. -/
theorem Interleaves.filter_eq {before after : List (List Entry)} {es log : List Entry} {p : Entry → Bool}
    (h : Interleaves (before ++ es :: after) log) (hes : ∀ x ∈ es, p x = true)
    (hothers : ∀ es' ∈ before ++ after, ∀ x ∈ es', p x = false) : log.filter p = es := by
  have hkeep : es.filter p = es := List.filter_eq_self.2 hes
  have hdrop (parts : List (List Entry)) (hparts : ∀ es' ∈ parts, es' ∈ before ++ after) :
      parts.flatten.filter p = [] := by
    rw [List.filter_eq_nil_iff]
    intro x hx
    obtain ⟨es', hes', hmem⟩ := List.mem_flatten.1 hx
    simp [hothers es' (hparts es' hes') x hmem]
  have hflatten : (before ++ es :: after).flatten.filter p = es := by
    simp [List.filter_append, hkeep, hdrop before (by simp +contextual),
      hdrop after (by simp +contextual)]
  have hperm : (log.filter p).Perm es := hflatten ▸ h.perm.filter p
  have hsublist : es.Sublist (log.filter p) := by
    simpa [hkeep] using (h.sublist es (by simp)).filter p
  exact (hsublist.eq_of_length hperm.length_eq.symm).symm

/-- With one record for each host, the history of a record is all that the journal has of its host. -/
theorem Attests.observing_filter {log : List Entry} {records : List Observation} {o : Observation}
    (h : Attests log records) (hhosts : (records.map (·.host)).Nodup) (ho : o ∈ records) :
    Observing o.node (log.filter fun x => x.host? == some o.host) (o, none) := by
  obtain ⟨histories, htold, hinter⟩ := h
  obtain ⟨before, after, rfl⟩ := List.append_of_mem ho
  obtain ⟨front, es, back, rfl, hfront, hes, hback⟩ := forall₂_append_cons htold
  have hhost {n : Node} {es' : List Entry} {a : Observation.Advance} (h' : Observing n es' a) :
      ∀ x ∈ es', x.host? = some n.host :=
    fun x hx => congrArg (Option.map Node.host) (h'.node?_of_mem x hx)
  have hfilter : log.filter (fun x => x.host? == some o.host) = es := by
    refine hinter.filter_eq (fun x hx => beq_iff_eq.2 (hhost hes x hx)) fun es' hes' x hx => ?_
    obtain ⟨o', ho', htold'⟩ : ∃ o' ∈ before ++ after, Observing o'.node es' (o', none) :=
      exists_related (List.rel_append hfront hback) hes'
    rw [hhost htold' x hx, beq_eq_false_iff_ne]
    exact fun hsame => ne_of_nodup_middle hhosts o' ho' (Option.some.inj hsame)
  rwa [hfilter]

end Rollout
