import Rollout.Proofs.Gather.Places

/-!
# When a node is read

The first sixteen nodes are read from the start. Any other takes the place that has become free, at the
time it has, which is when all nodes sixteen and more before it are over: that is `opening?`, said of what
the journal shows. It is shown by what every step of a gathering keeps (`Punctual`): a free place was freed
just now, and a place that was taken was free then.
-/

namespace Rollout

variable {σ : Type}

def timesOf (log : List Entry) (host : String) : List Instant :=
  (log.filter (·.host? == some host)).map Entry.time

/-- When the host is called first, and when its last answer comes. -/
def readFrom? (log : List Entry) (host : String) : Option Instant := (timesOf log host).head?

def readUntil? (log : List Entry) (host : String) : Option Instant := (timesOf log host).getLast?

/-- When a place opens for the node at position `i`: at the start, or when all nodes that come
`gatherWidth` places earlier, or more, are over. -/
def opening? (hosts : List String) (log : List Entry) (start : Instant) (i : ℕ) : Option Instant :=
  if i < gatherWidth then some start
  else ((hosts.take (i + 1 - gatherWidth)).filterMap (readUntil? log)).max?

section

variable {hosts : List String} {log : List Entry} {host : String} {x : Entry} {start time : Instant}
  {i : ℕ}

theorem timesOf_push_of_eq (h : x.host? = some host) :
    timesOf (log ++ [x]) host = timesOf log host ++ [x.time] := by
  simp [timesOf, h]

theorem timesOf_push_of_ne (h : x.host? ≠ some host) :
    timesOf (log ++ [x]) host = timesOf log host := by
  simp [timesOf, h]

theorem timesOf_eq_nil_iff : timesOf log host = [] ↔ ∀ e ∈ log, e.host? ≠ some host := by
  simp [timesOf, List.filter_eq_nil_iff]

theorem exists_mem_of_mem_timesOf (h : time ∈ timesOf log host) : ∃ e ∈ log, e.time = time := by
  obtain ⟨e, he, rfl⟩ := List.mem_map.1 h
  exact ⟨e, List.mem_of_mem_filter he, rfl⟩

theorem exists_mem_of_readUntil? (h : readUntil? log host = some time) : ∃ e ∈ log, e.time = time :=
  exists_mem_of_mem_timesOf (List.mem_of_getLast? h)

theorem readUntil?_push_of_eq (h : x.host? = some host) :
    readUntil? (log ++ [x]) host = some x.time := by
  rw [readUntil?, timesOf_push_of_eq h, List.getLast?_concat]

/-- A place that opens after the start opens when the last of some nodes is over. -/
theorem opening?_of_readUntil? {j : ℕ} (hj : j + gatherWidth ≤ i) (hhost : hosts[j]? = some host)
    (hover : readUntil? log host = some time) (hpast : ∀ e ∈ log, e.time ≤ time) :
    opening? hosts log start i = some time := by
  have hlate : ¬ i < gatherWidth := by omega
  rw [opening?, if_neg hlate, List.max?_eq_some_iff]
  constructor
  · refine List.mem_filterMap.2 ⟨host, ?_, hover⟩
    have htake : (hosts.take (i + 1 - gatherWidth))[j]? = some host := by
      rw [List.getElem?_take_of_lt (by omega)]
      exact hhost
    exact List.mem_of_getElem? htake
  · intro t ht
    obtain ⟨host', -, hover'⟩ := List.mem_filterMap.1 ht
    obtain ⟨e, he, rfl⟩ := exists_mem_of_readUntil? hover'
    exact hpast e he

theorem exists_readUntil?_of_opening? (hlate : gatherWidth ≤ i)
    (h : opening? hosts log start i = some time) :
    ∃ j host, j + gatherWidth ≤ i ∧ hosts[j]? = some host ∧ readUntil? log host = some time := by
  rw [opening?, if_neg (Nat.not_lt.2 hlate)] at h
  obtain ⟨host, hmem, hover⟩ := List.mem_filterMap.1 (List.max?_mem h)
  obtain ⟨j, hj⟩ := List.getElem?_of_mem hmem
  obtain ⟨hlt, -⟩ := List.getElem?_eq_some_iff.1 hj
  have hlt' : j < i + 1 - gatherWidth := by
    rw [List.length_take] at hlt
    omega
  rw [List.getElem?_take_of_lt hlt'] at hj
  exact ⟨j, host, by omega, hj, hover⟩

theorem opening?_push (hnodup : hosts.Nodup) {k : ℕ} (hx : hosts[k]? = x.host?)
    (hk : i < k + gatherWidth) : opening? hosts (log ++ [x]) start i = opening? hosts log start i := by
  unfold opening?
  split
  · rfl
  congr 1
  refine List.filterMap_congr fun host hmem => ?_
  obtain ⟨j, hj⟩ := List.getElem?_of_mem hmem
  obtain ⟨hlt, -⟩ := List.getElem?_eq_some_iff.1 hj
  rw [List.length_take] at hlt
  have hne : x.host? ≠ some host := by
    intro heq
    rw [List.getElem?_take_of_lt (by omega)] at hj
    have hsame : j = k :=
      (List.getElem?_inj (by omega) hnodup).1 (hj.trans (heq.symm.trans hx.symm))
    omega
  unfold readUntil?
  rw [timesOf_push_of_ne hne]

end

namespace Gathering

variable {env : Environment σ} {g g' : Gathering σ} {hosts : List String} {start : Instant}
  {log : List Entry}

/-- The node of the place is read from `time` on, or will be. -/
def Begins (log : List Entry) (p : Place σ) (time : Instant) : Prop :=
  readFrom? log p.node.host = some time ∨ timesOf log p.node.host = [] ∧ p.due? = some time

/-- Every node that has a place, or had one, took it when it opened; and as long as nodes wait for a
place, one that is free has just become so. -/
structure Punctual (hosts : List String) (start : Instant) (log : List Entry) (g : Gathering σ) :
    Prop where
  timely : g.Timely
  started : start ≤ g.world.now
  times : ∀ e ∈ log, start ≤ e.time ∧ e.time ≤ g.world.now
  opened : ∀ i p, g.begun[i]? = some p → ∃ time, opening? hosts log start i = some time ∧
    Begins log p time
  head : ∀ record rest, g.places = .observed record :: rest → g.places.length = gatherWidth →
    readUntil? log record.node.host = some g.world.now
  free : g.unstarted ≠ [] → g.places.length < gatherWidth →
    opening? hosts log start g.begun.length = some g.world.now

/-- A node without a place has not been called. -/
theorem Placed.timesOf_unstarted (hnodup : hosts.Nodup)
    (hplaced : g.Placed env hosts log) {node : Node} {unstarted : List Node}
    (hunstarted : g.unstarted = node :: unstarted) : timesOf log node.host = [] := by
  refine timesOf_eq_nil_iff.2 fun e he heq => ?_
  obtain ⟨i, hi, hhost⟩ := hplaced.heard e he
  have hnode : hosts[g.begun.length]? = some node.host := by
    rw [← hplaced.order, visiting_eq, hunstarted]
    simp
  have hsame : i = g.begun.length := by
    refine (List.getElem?_inj ?_ hnodup).1 (hhost.trans (heq.trans hnode.symm))
    exact hi.trans (List.getElem?_eq_some_iff.1 hnode).1
  omega

namespace Punctual

theorem free_succ (hplaced : g.Placed env hosts log) (hg : g.Punctual hosts start log)
    (hunstarted : g.unstarted ≠ []) (hfree : g.places.length + 1 < gatherWidth) :
    opening? hosts log start (g.begun.length + 1) = some g.world.now := by
  have hopen := hg.free hunstarted (by omega)
  have hpast : ∀ e ∈ log, e.time ≤ g.world.now := fun e he => (hg.times e he).2
  rcases Nat.lt_trichotomy (g.begun.length + 1) gatherWidth with hlt | heq | hgt
  · rw [opening?, if_pos hlt]
    rwa [opening?, if_pos (by omega)] at hopen
  · -- The first node is over, and nothing has happened after the start.
    rw [opening?, if_pos (by omega)] at hopen
    have hnow : start = g.world.now := Option.some.inj hopen
    obtain ⟨o, hrecord⟩ : ∃ o, g.records.toList[0]? = some o := by
      rw [length_begun] at heq
      have hsome : 0 < g.records.toList.length := by
        rw [Array.length_toList]
        omega
      exact ⟨_, List.getElem?_eq_getElem hsome⟩
    have hfirst : g.begun[0]? = some (.observed o) := by
      obtain ⟨hlt, hget⟩ := List.getElem?_eq_some_iff.1 hrecord
      rw [begun, List.getElem?_append_left (by simpa using hlt), List.getElem?_map, hrecord]
      rfl
    obtain ⟨time, -, hfrom | ⟨-, hdue⟩⟩ := hg.opened 0 _ hfirst
    · obtain ⟨last, hlast⟩ : ∃ last, readUntil? log o.node.host = some last := by
        have hmem : time ∈ timesOf log o.node.host := List.mem_of_head? hfrom
        exact ⟨_, List.getLast?_eq_some_getLast (List.ne_nil_of_mem hmem)⟩
      obtain ⟨e, he, rfl⟩ := exists_mem_of_readUntil? hlast
      have hsame : e.time = g.world.now :=
        le_antisymm (hg.times e he).2 (hnow ▸ (hg.times e he).1)
      exact opening?_of_readUntil? (Nat.zero_add _ ▸ heq.ge) (hplaced.hosts_begun hfirst)
        (hlast.trans (congrArg some hsame)) hpast
    · cases hdue
  · obtain ⟨j, host, hj, hhost, hover⟩ := exists_readUntil?_of_opening? (by omega) hopen
    exact opening?_of_readUntil? (by omega) hhost hover hpast

theorem release (hplaced : g.Placed env hosts log) (hg : g.Punctual hosts start log)
    {record : Observation} {places : List (Place σ)} (hplaces : g.places = .observed record :: places) :
    Punctual hosts start log { g with places, records := g.records.push record } := by
  have hbegun := begun_released hplaces
  have hlength : g.places.length = places.length + 1 := by rw [hplaces, List.length_cons]
  have hwidth := hplaced.width
  refine ⟨fun p hp => hg.timely p (hplaces ▸ List.mem_cons_of_mem _ hp), hg.started, hg.times,
    hbegun ▸ hg.opened, fun o rest _ hfull => ?_, fun hunstarted _ => ?_⟩
  · change places.length = gatherWidth at hfull
    omega
  rw [hbegun]
  rcases Nat.lt_or_ge g.places.length gatherWidth with hlt | hge
  · exact hg.free hunstarted hlt
  · have hfirst : g.places = [] ++ .observed record :: places := hplaces
    obtain ⟨-, hhost⟩ := hplaced.place hfirst
    have hover := hg.head record places hplaces (le_antisymm hwidth hge)
    refine opening?_of_readUntil? ?_ hhost hover fun e he => (hg.times e he).2
    rw [length_begun]
    exact Nat.add_le_add_left hge _

theorem start_next (hnodup : hosts.Nodup) (hplaced : g.Placed env hosts log)
    (hg : g.Punctual hosts start log) (hhead : g.HeadPending) {node : Node} {unstarted : List Node}
    (hunstarted : g.unstarted = node :: unstarted) (hfree : g.places.length < gatherWidth) :
    Punctual hosts start log
      { g with places := g.places ++ [.ready { node } .connect g.world.now], unstarted } := by
  have hwaiting : g.unstarted ≠ [] := by simp [hunstarted]
  refine ⟨fun p hp t ht => ?_, hg.started, hg.times, fun i p hp => ?_, fun o rest hplaces hfull => ?_,
    fun _ hlt => ?_⟩
  · rcases List.mem_append.1 hp with hp | hp
    · exact hg.timely p hp t ht
    · obtain rfl := List.mem_singleton.1 hp
      cases ht
      exact le_rfl
  · rw [begun_started] at hp
    rcases Nat.lt_trichotomy i g.begun.length with hlt | rfl | hgt
    · rw [List.getElem?_append_left hlt] at hp
      exact hg.opened i p hp
    · rw [List.getElem?_concat_length] at hp
      cases hp
      exact ⟨g.world.now, hg.free hwaiting hfree,
        .inr ⟨hplaced.timesOf_unstarted hnodup hunstarted, rfl⟩⟩
    · rw [List.getElem?_eq_none (by simpa using Nat.succ_le_of_lt hgt)] at hp
      cases hp
  · cases hempty : g.places with
    | nil =>
      rw [hempty] at hfull
      cases hfull
    | cons p places =>
      rw [hempty] at hplaces
      obtain ⟨rfl, -⟩ := List.cons.inj hplaces
      exact absurd hempty (hhead o places)
  · have hlt' : g.places.length + 1 < gatherWidth := by simpa using hlt
    rw [begun_started, List.length_append]
    exact free_succ hplaced hg hwaiting hlt'

/-- After the entry of a place that goes on, every place has still been taken when it opened. -/
theorem opened_push (hnodup : hosts.Nodup) (hplaced : g.Placed env hosts log)
    (hg : g.Punctual hosts start log) {k : ℕ} {p p' : Place σ} {x : Entry}
    (hk : g.records.size ≤ k) (hp : g.begun[k]? = some p) (hnode : p'.node = p.node)
    (hx : x.host? = some p.node.host) (hdue : p.due? = some x.time) :
    ∀ i q, (g.begun.set k p')[i]? = some q →
      ∃ time, opening? hosts (log ++ [x]) start i = some time ∧ Begins (log ++ [x]) q time := by
  have hhost : hosts[k]? = some p.node.host := hplaced.hosts_begun hp
  have hplace : k < g.begun.length := (List.getElem?_eq_some_iff.1 hp).1
  have hwidth := hplaced.width
  have hlength := g.length_begun
  intro i q hq
  have hopening (hi : i < g.begun.length) :
      opening? hosts (log ++ [x]) start i = opening? hosts log start i :=
    opening?_push hnodup (hhost.trans hx.symm) (by omega)
  by_cases hi : k = i
  · subst hi
    rw [List.getElem?_set_self hplace] at hq
    cases hq
    obtain ⟨time, htime, hbegins⟩ := hg.opened _ _ hp
    refine ⟨time, (hopening hplace).trans htime, .inl ?_⟩
    rw [hnode, readFrom?, timesOf_push_of_eq hx]
    rcases hbegins with hfrom | ⟨hnil, hwill⟩
    · rw [List.head?_append, show (timesOf log p.node.host).head? = some time from hfrom]
      rfl
    · rw [hnil]
      exact hdue.symm.trans hwill
  · rw [List.getElem?_set_ne hi] at hq
    obtain ⟨time, htime, hbegins⟩ := hg.opened i q hq
    obtain ⟨hlt, -⟩ := List.getElem?_eq_some_iff.1 hq
    refine ⟨time, (hopening hlt).trans htime, ?_⟩
    have hne : x.host? ≠ some q.node.host := by
      intro heq
      have hq' := hplaced.hosts_begun hq
      refine hi ((List.getElem?_inj ?_ hnodup).1 (hhost.trans (hx.symm.trans (heq.trans hq'.symm))))
      exact (List.getElem?_eq_some_iff.1 hhost).1
    unfold Begins readFrom?
    rw [timesOf_push_of_ne hne]
    exact hbegins

theorem proceed (hnodup : hosts.Nodup) (hplaced : g.Placed env hosts log)
    (hg : g.Punctual hosts start log) (hhead : g.HeadPending)
    (hfull : g.unstarted = [] ∨ gatherWidth ≤ g.places.length) {now : Instant}
    {done rest : List (Place σ)} {p : Place σ} {x : Entry} (hplaces : g.places = done ++ p :: rest)
    (hdue : p.due? = some now) (hfirst : ∀ q ∈ g.places, ∀ t, q.due? = some t → now ≤ t)
    (hx : x.host? = some p.node.host) (hxtime : x.time = now) :
    Punctual hosts start (log ++ [x])
      { g with
        world := (go env now g.world p).1
        places := done ++ (go env now g.world p).2 :: rest } := by
  have hnow : g.world.now ≤ now := hg.timely p (by simp [hplaces]) now hdue
  obtain ⟨-, hworld, hlater⟩ := extends_go env g.world p hnow hdue
  obtain ⟨hbegun, -⟩ := hplaced.place hplaces
  refine ⟨?_, ?_, ?_, fun i q hq => ?_, fun o rest' hplaces' _ => ?_, fun hunstarted hlt => ?_⟩
  · intro q hq t ht
    rw [hworld]
    rcases List.mem_append.1 hq with hq | hq
    · exact hfirst q (by simp [hplaces, hq]) t ht
    rcases List.mem_cons.1 hq with rfl | hq
    · exact hlater t ht
    · exact hfirst q (by simp [hplaces, hq]) t ht
  · rw [hworld]
    exact hg.started.trans hnow
  · rw [hworld]
    intro e he
    rcases List.mem_append.1 he with he | he
    · exact ⟨(hg.times e he).1, (hg.times e he).2.trans hnow⟩
    · obtain rfl := List.mem_singleton.1 he
      rw [hxtime]
      exact ⟨hg.started.trans hnow, le_rfl⟩
  · have hset : ({ g with
        world := (go env now g.world p).1
        places := done ++ (go env now g.world p).2 :: rest } : Gathering σ).begun =
        g.begun.set (g.records.size + done.length) (go env now g.world p).2 := by
      simp [begun, hplaces]
    rw [hset] at hq
    exact opened_push hnodup hplaced hg (Nat.le_add_right _ _) hbegun (node_go ..) hx
      (hxtime ▸ hdue) i q hq
  · -- Only the first place can have become the first that is over.
    cases done with
    | nil =>
      obtain ⟨hobserved, -⟩ := List.cons.inj hplaces'
      have hnode : o.node = p.node := by
        rw [← node_go env now g.world p, hobserved]
        rfl
      rw [hnode, readUntil?_push_of_eq hx, hxtime, hworld]
    | cons q done =>
      obtain ⟨rfl, -⟩ := List.cons.inj hplaces'
      exact absurd hplaces (hhead o _)
  · rcases hfull with hnil | hge
    · exact absurd hnil hunstarted
    · have hsame : (done ++ (go env now g.world p).2 :: rest).length = g.places.length := by
        simp [hplaces]
      exact absurd (hsame ▸ hlt) (Nat.not_lt.2 hge)

theorem step (hnodup : hosts.Nodup) {w : World σ} (hlog : w.Gains g.world log)
    (hplaced : g.Placed env hosts log) (hg : g.Punctual hosts start log) (h : g.Steps env g')
    {log' : List Entry} (hlog' : w.Gains g'.world log') : g'.Punctual hosts start log' := by
  cases h with
  | released hplaces =>
    obtain rfl := hlog.unique hlog'
    exact hg.release hplaced hplaces
  | started hhead hunstarted hfree =>
    obtain rfl := hlog.unique hlog'
    exact hg.start_next hnodup hplaced hhead hunstarted hfree
  | @proceeded now done p rest hhead hfull hplaces hdue hfirst =>
    have hserved : p.Served env := hplaced.served p (by simp [hplaces])
    obtain ⟨x, hgains, hx, hxtime⟩ := exists_entry_go (w := g.world) hserved hdue
    obtain rfl := (hlog.trans hgains).unique hlog'
    exact hg.proceed hnodup hplaced hhead hfull hplaces hdue hfirst hx hxtime

end Punctual
end Gathering
end Rollout
