import Rollout.Proofs.Gather.Steps
import Rollout.Proofs.Run.Turns

/-!
# Sixteen at a time

A node is called only while it has a place, and places are taken and given back in visiting order. So two
nodes sixteen apart are never read at once: all entries of the earlier one stand in the journal before any
of the later one.
-/

namespace Rollout

variable {σ : Type}

def Entry.host? (e : Entry) : Option String := e.call.node?.map (·.host)

/-- The hosts that are called both before and after a moment of the journal. -/
def underway (hosts : List String) (front back : List Entry) : List String :=
  hosts.filter fun host => front.any (·.host? == some host) && back.any (·.host? == some host)

/-- No entry of a node stands before one of a node that comes `gatherWidth` places earlier. -/
def InPlaces (hosts : List String) (log : List Entry) : Prop :=
  log.Pairwise fun e e' =>
    ∀ i j, hosts[i]? = e.host? → hosts[j]? = e'.host? → i < j + gatherWidth

theorem length_filter_le_of_lt {α : Type} {p : α → Bool} {xs : List α} {n : ℕ}
    (h : ∀ i x, xs[i]? = some x → p x = true → i < n) : (xs.filter p).length ≤ n := by
  induction xs generalizing n with
  | nil => simp
  | cons x xs ih =>
    cases n with
    | zero =>
      rw [Nat.le_zero, List.length_eq_zero_iff, List.filter_eq_nil_iff]
      intro y hy hpy
      obtain ⟨i, hi⟩ := List.getElem?_of_mem hy
      exact absurd (h i y hi hpy) (Nat.not_lt_zero i)
    | succ n =>
      have htail : (xs.filter p).length ≤ n :=
        ih fun i y hi hpy => Nat.lt_of_succ_lt_succ (h (i + 1) y hi hpy)
      rw [List.filter_cons]
      split
      · exact Nat.succ_le_succ htail
      · exact htail.trans (Nat.le_succ n)

/-- Items that are all less than `n` places apart are `n` at most. -/
theorem length_filter_le_of_near {α : Type} {p : α → Bool} {xs : List α} {n : ℕ}
    (h : ∀ i j x y, xs[i]? = some x → xs[j]? = some y → p x = true → p y = true → i < j + n) :
    (xs.filter p).length ≤ n := by
  induction xs with
  | nil => simp
  | cons x xs ih =>
    by_cases hx : p x = true
    · refine length_filter_le_of_lt fun i y hi hy => ?_
      simpa using h i 0 y x hi rfl hy hx
    · rw [List.filter_cons_of_neg hx]
      refine ih fun i j y z hi hj hy hz => ?_
      have hnear := h (i + 1) (j + 1) y z hi hj hy hz
      omega

/-- At no moment of such a journal are more nodes read than there are places. -/
theorem InPlaces.length_underway_le {hosts : List String} {front back : List Entry}
    (h : InPlaces hosts (front ++ back)) : (underway hosts front back).length ≤ gatherWidth := by
  refine length_filter_le_of_near fun i j host host' hi hj hboth hboth' => ?_
  simp only [Bool.and_eq_true, List.any_eq_true, beq_iff_eq] at hboth hboth'
  obtain ⟨⟨e, he, hhost⟩, -⟩ := hboth
  obtain ⟨-, e', he', hhost'⟩ := hboth'
  exact (List.pairwise_append.1 h).2.2 e he e' he' i j (hi.trans hhost.symm) (hj.trans hhost'.symm)

namespace Gathering

variable {env : Environment σ} {g g' : Gathering σ}

theorem exists_entry_go {now : Instant} {w : World σ} {p : Place σ} (hserved : p.Served env)
    (hdue : p.due? = some now) :
    ∃ x, w.Gains (go env now w p).1 [x] ∧ x.host? = some p.node.host ∧ x.time = now := by
  cases p with
  | ready record step since =>
    refine ⟨.sent now (step.call record.node), Array.toList_push, ?_, rfl⟩
    exact congrArg (Option.map _) hserved
  | waiting record step wake finish =>
    refine ⟨.answered now (step.call record.node) (finish w.state).2, Array.toList_push, ?_, rfl⟩
    exact congrArg (Option.map _) hserved.1
  | observed record => cases hdue

/-- Where the hosts of a run stand in visiting order, and what its journal tells of them so far. -/
structure Placed (env : Environment σ) (hosts : List String) (log : List Entry) (g : Gathering σ) :
    Prop where
  order : g.visiting.map (·.host) = hosts
  width : g.places.length ≤ gatherWidth
  served : ∀ p ∈ g.places, p.Served env
  heard : ∀ e ∈ log, ∃ i < g.begun.length, hosts[i]? = e.host?
  inPlaces : InPlaces hosts log

namespace Placed

variable {hosts : List String} {log : List Entry}

theorem hosts_begun (h : g.Placed env hosts log) {i : ℕ} {p : Place σ} (hp : g.begun[i]? = some p) :
    hosts[i]? = some p.node.host := by
  rw [← h.order, Gathering.visiting_eq]
  obtain ⟨hi, hget⟩ := List.getElem?_eq_some_iff.1 hp
  rw [List.map_append, List.getElem?_append_left (by simpa using hi)]
  simp [hp]

theorem place (h : g.Placed env hosts log) {done rest : List (Place σ)} {p : Place σ}
    (hplaces : g.places = done ++ p :: rest) :
    g.begun[g.records.size + done.length]? = some p ∧
      hosts[g.records.size + done.length]? = some p.node.host := by
  have hp : g.begun[g.records.size + done.length]? = some p := by
    simp [begun_eq_append hplaces]
  exact ⟨hp, h.hosts_begun hp⟩

theorem push (hnodup : hosts.Nodup) (h : g.Placed env hosts log) {k : ℕ} {x : Entry}
    (hk : g.records.size ≤ k) (hx : hosts[k]? = x.host?) (hhost : x.host? ≠ none) :
    InPlaces hosts (log ++ [x]) := by
  refine List.pairwise_append.2 ⟨h.inPlaces, List.pairwise_singleton _ _, ?_⟩
  intro e he x' hx' i j hi hj
  obtain rfl := List.mem_singleton.1 hx'
  obtain ⟨i', hlt, hi'⟩ := h.heard e he
  have hin {m : ℕ} {y : Option String} (hm : hosts[m]? = y) (hy : y ≠ none) : m < hosts.length := by
    by_contra hout
    exact hy (hm.symm.trans (List.getElem?_eq_none (Nat.le_of_not_lt hout)))
  have hbegun : g.begun.length ≤ hosts.length := by
    rw [← h.order, Gathering.visiting_eq]
    simp
  have hsame : i' = i := (List.getElem?_inj (hlt.trans_le hbegun) hnodup).1 (hi'.trans hi.symm)
  have hsame' : k = j := (List.getElem?_inj (hin hx hhost) hnodup).1 (hx.trans hj.symm)
  have hwidth := h.width
  rw [length_begun] at hlt
  omega

theorem step (hnodup : hosts.Nodup) {w : World σ} (hlog : w.Gains g.world log)
    (hg : g.Placed env hosts log) (h : g.Steps env g') :
    ∃ log', w.Gains g'.world log' ∧ g'.Placed env hosts log' := by
  have horder : g'.visiting.map (·.host) = hosts := h.visiting_eq ▸ hg.order
  have hserved := h.served hg.served
  cases h with
  | @released record places hplaces =>
    refine ⟨log, hlog, horder, ?_, hserved, ?_, hg.inPlaces⟩
    · have hwidth := hg.width
      rw [hplaces] at hwidth
      exact (Nat.le_succ _).trans hwidth
    · rw [begun_released hplaces]
      exact hg.heard
  | @started node unstarted _ _ hfree =>
    refine ⟨log, hlog, horder, by simpa using Nat.succ_le_of_lt hfree, hserved, ?_, hg.inPlaces⟩
    rw [begun_started]
    intro e he
    obtain ⟨i, hi, hhost⟩ := hg.heard e he
    exact ⟨i, hi.trans_le (by simp), hhost⟩
  | @proceeded now done p rest _ _ hplaces hdue =>
    obtain ⟨hbegun, hhost⟩ := hg.place hplaces
    obtain ⟨x, hgains, hx, -⟩ := exists_entry_go (w := g.world) (hg.served p (by simp [hplaces])) hdue
    refine ⟨log ++ [x], hlog.trans hgains, horder, ?_, hserved, ?_,
      hg.push hnodup (Nat.le_add_right _ _) (hhost.trans hx.symm) (by simp [hx])⟩
    · have hwidth := hg.width
      rw [hplaces] at hwidth
      simpa using hwidth
    · intro e he
      have hsame : ({ g with
          world := (go env now g.world p).1
          places := done ++ (go env now g.world p).2 :: rest } : Gathering σ).begun.length =
          g.begun.length := by
        rw [begun_eq_append rfl, begun_eq_append hplaces]
        simp
      rw [hsame]
      rcases List.mem_append.1 he with he | he
      · exact hg.heard e he
      · obtain rfl := List.mem_singleton.1 he
        exact ⟨_, (List.getElem?_eq_some_iff.1 hbegun).1, hhost.trans hx.symm⟩

end Placed
end Gathering
end Rollout
