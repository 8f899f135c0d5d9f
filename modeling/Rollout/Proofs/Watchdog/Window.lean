import Mathlib.Order.MinMax
import Rollout.Run.Watchdog

/-!
# The window of the watchdog

A window ends in one of three ways: something comes that is not healthy, the signal is raised, or its time
is up. What comes before that is looked at, queued items included. What comes at the very end may be looked
at or not, as the branches are favoured then.
-/

namespace Rollout

/-- An item of a stream that leaves a window alone: a healthy status or an unrelated event. -/
def Harmless (item : Option (Except ApiError NodeEvent)) : Prop :=
  (∃ url, item = some (.ok (.other url))) ∨
    ∃ s : Status, item = some (.ok (.status s)) ∧ s.stage = .running ∧ s.readiness.ready = true

theorem lost?_eq_none_iff (item : Option (Except ApiError NodeEvent)) :
    lost? item = none ↔ Harmless item := by
  rcases item with _ | e | s | url
  · simp [lost?, Harmless]
  · simp [lost?, Harmless]
  · simp [lost?, Harmless, Status.unhealthy?_eq_none_iff]
  · simp [lost?, Harmless]

namespace EventStream

theorem le_of_mem_go (stream : EventStream) {start : Instant}
    {events : List (Duration × Except ApiError NodeEvent)} :
    ∀ p ∈ timeline.go stream start events, start ≤ p.1 := by
  induction events generalizing start with
  | nil =>
    unfold timeline.go
    split <;> simp
  | cons head rest ih =>
    intro p hp
    unfold timeline.go at hp
    rcases List.mem_cons.1 hp with rfl | hp
    · exact Nat.le_add_right _ _
    · exact (Nat.le_add_right _ _).trans (ih p hp)

theorem pairwise_timeline (stream : EventStream) (start : Instant) :
    (stream.timeline start).Pairwise (·.1 ≤ ·.1) := by
  unfold timeline
  generalize stream.events = events
  induction events generalizing start with
  | nil =>
    unfold timeline.go
    split <;> simp
  | cons head rest ih =>
    unfold timeline.go
    exact List.pairwise_cons.2 ⟨stream.le_of_mem_go, ih (start + head.1)⟩

end EventStream

/-- When a window ends that nothing loses. -/
def windowEnd (start stop : Instant) (raised : Option Instant) : Instant :=
  raised.elim stop fun time => min stop (max start time)

/-- All items of a front part are taken in a window that ends at `last`: each is seen before, or is seen
right then and favoured when its turn comes. -/
def AllTaken (favours : ℕ → Branch) (start last : Instant)
    (front : List (Instant × Option (Except ApiError NodeEvent))) : Prop :=
  ∀ n p, front[n]? = some p → max start p.1 < last ∨ max start p.1 = last ∧ favours n = .item

section Taking

variable {favours : ℕ → Branch} {start last : Instant} {p : Instant × Option (Except ApiError NodeEvent)}
  {front rest : List (Instant × Option (Except ApiError NodeEvent))}

@[simp]
theorem allTaken_nil : AllTaken favours start last [] := by
  simp [AllTaken]

theorem allTaken_cons :
    AllTaken favours start last (p :: rest) ↔
      (max start p.1 < last ∨ max start p.1 = last ∧ favours 0 = .item) ∧
        AllTaken (fun n => favours (n + 1)) start last rest := by
  constructor
  · intro h
    exact ⟨h 0 p rfl, fun n q hq => h (n + 1) q hq⟩
  · rintro ⟨hp, hrest⟩ n q hq
    cases n with
    | zero =>
      cases hq
      exact hp
    | succ n => exact hrest n q hq

theorem AllTaken.of_prefix (h : AllTaken favours start last rest) (hfront : front <+: rest) :
    AllTaken favours start last front := by
  obtain ⟨after, rfl⟩ := hfront
  intro n p hp
  obtain ⟨hn, -⟩ := List.getElem?_eq_some_iff.1 hp
  exact h n p (by rwa [List.getElem?_append_left hn])

theorem AllTaken.le (h : AllTaken favours start last front) (hp : p ∈ front) : max start p.1 ≤ last := by
  obtain ⟨n, hn⟩ := List.mem_iff_getElem?.1 hp
  rcases h n p hn with hlt | ⟨heq, -⟩
  · exact hlt.le
  · exact heq.le

theorem allTaken_of_lt (h : ∀ p ∈ front, max start p.1 < last) : AllTaken favours start last front :=
  fun _ p hp => .inl (h p (List.mem_of_getElem? hp))

/-- If the timer is favoured, the last instant is not part of the window. -/
theorem allTaken_timer_iff :
    AllTaken (fun _ => .timer) start last front ↔ ∀ p ∈ front, max start p.1 < last := by
  refine ⟨fun h p hp => ?_, allTaken_of_lt⟩
  obtain ⟨n, hn⟩ := List.mem_iff_getElem?.1 hp
  rcases h n p hn with hlt | ⟨-, hfavoured⟩
  · exact hlt
  · cases hfavoured

/-- If items are favoured, it is. -/
theorem allTaken_item_iff :
    AllTaken (fun _ => .item) start last front ↔ ∀ p ∈ front, max start p.1 ≤ last := by
  refine ⟨fun h p hp => h.le hp, fun h n p hp => ?_⟩
  rcases (h p (List.mem_of_getElem? hp)).lt_or_eq with hlt | heq
  · exact .inl hlt
  · exact .inr ⟨heq, rfl⟩

end Taking

/-- How the window from `start` to `stop` ends, and when. -/
inductive WindowEnds (favours : ℕ → Branch) (start stop : Instant) (raised : Option Instant)
    (items : List (Instant × Option (Except ApiError NodeEvent))) : Instant × Sight → Prop
  /-- The first item that is not harmless is taken. -/
  | lost {before after t item reason} (hitems : items = before ++ (t, item) :: after)
      (hbefore : ∀ p ∈ before, Harmless p.2) (hlost : lost? item = some reason)
      (htaken : AllTaken favours start (windowEnd start stop raised) (before ++ [(t, item)])) :
      WindowEnds favours start stop raised items (max start t, .lost reason)
  /-- All that is taken is harmless. -/
  | quiet {before after} (hitems : items = before ++ after) (hbefore : ∀ p ∈ before, Harmless p.2)
      (htaken : AllTaken favours start (windowEnd start stop raised) before)
      (hleft : ∀ p rest, after = p :: rest →
        ¬ AllTaken favours start (windowEnd start stop raised) (before ++ [p])) :
      WindowEnds favours start stop raised items (quietUntil start stop raised (favours before.length))

section Windows

variable {favours : ℕ → Branch} {start stop : Instant} {raised : Option Instant} {favoured : Branch}
  {items before after : List (Instant × Option (Except ApiError NodeEvent))} {out : Instant × Sight}

theorem quietUntil_fst : (quietUntil start stop raised favoured).1 = windowEnd start stop raised := by
  unfold quietUntil windowEnd
  cases raised with
  | none => rfl
  | some time =>
    dsimp only [Option.elim]
    split
    · next h => exact (min_eq_right (by grind)).symm
    · next h => exact (min_eq_left (by grind)).symm

theorem quietUntil_none : quietUntil start stop none favoured = (stop, .stable) := rfl

theorem quietUntil_eq_stable {time : Instant} (h : quietUntil start stop raised favoured = (time, .stable)) :
    time = stop ∧ windowEnd start stop raised = stop ∧ ∀ c, raised = some c → stop ≤ max start c := by
  unfold quietUntil at h
  cases raised with
  | none =>
    cases h
    exact ⟨rfl, rfl, nofun⟩
  | some c =>
    dsimp only at h
    split at h
    · cases h
    · next hlate =>
      cases h
      have hle : stop ≤ max start c := Nat.le_of_not_lt fun hlt => hlate (.inl hlt)
      refine ⟨rfl, min_eq_left hle, ?_⟩
      rintro c' ⟨⟩
      exact hle

theorem watchWindow_cons (p : Instant × Option (Except ApiError NodeEvent)) :
    watchWindow start stop raised favours (p :: after) =
      if max start p.1 < windowEnd start stop raised ∨
          max start p.1 = windowEnd start stop raised ∧ favours 0 = .item then
        match lost? p.2 with
        | some reason => (max start p.1, .lost reason)
        | none => watchWindow start stop raised (fun n => favours (n + 1)) after
      else quietUntil start stop raised (favours 0) := by
  have hend : (quietUntil start stop raised (favours 0)).1 = windowEnd start stop raised := quietUntil_fst
  rw [← hend]
  rfl

theorem watchWindow_of_lost {t : Instant} {item : Option (Except ApiError NodeEvent)} {reason : String}
    (hbefore : ∀ p ∈ before, Harmless p.2) (hlost : lost? item = some reason)
    (htaken : AllTaken favours start (windowEnd start stop raised) (before ++ [(t, item)])) :
    watchWindow start stop raised favours (before ++ (t, item) :: after) =
      (max start t, .lost reason) := by
  induction before generalizing favours with
  | nil =>
    obtain ⟨hfirst, -⟩ := allTaken_cons.1 htaken
    rw [List.nil_append, watchWindow_cons, if_pos hfirst]
    dsimp only
    rw [hlost]
  | cons p before ih =>
    obtain ⟨hfirst, hrest⟩ := allTaken_cons.1 htaken
    have hharmless := (lost?_eq_none_iff p.2).2 (hbefore p (by simp))
    rw [List.cons_append, watchWindow_cons, if_pos hfirst, hharmless]
    exact ih (fun q hq => hbefore q (by simp [hq])) hrest

theorem watchWindow_of_quiet (hbefore : ∀ p ∈ before, Harmless p.2)
    (htaken : AllTaken favours start (windowEnd start stop raised) before)
    (hleft : ∀ p rest, after = p :: rest →
      ¬ AllTaken favours start (windowEnd start stop raised) (before ++ [p])) :
    watchWindow start stop raised favours (before ++ after) =
      quietUntil start stop raised (favours before.length) := by
  induction before generalizing favours with
  | nil =>
    cases after with
    | nil => rfl
    | cons p rest =>
      have hnot := hleft p rest rfl
      rw [List.nil_append, allTaken_cons, and_iff_left allTaken_nil] at hnot
      rw [List.nil_append, watchWindow_cons, if_neg hnot]
      rfl
  | cons p before ih =>
    obtain ⟨hfirst, hrest⟩ := allTaken_cons.1 htaken
    have hharmless := (lost?_eq_none_iff p.2).2 (hbefore p (by simp))
    rw [List.cons_append, watchWindow_cons, if_pos hfirst, hharmless]
    refine ih (fun q hq => hbefore q (by simp [hq])) hrest fun q rest hafter hall => ?_
    exact hleft q rest hafter (allTaken_cons.2 ⟨hfirst, hall⟩)

theorem exists_windowEnds (favours : ℕ → Branch) (start stop : Instant) (raised : Option Instant)
    (items : List (Instant × Option (Except ApiError NodeEvent))) :
    ∃ out, WindowEnds favours start stop raised items out := by
  induction items generalizing favours with
  | nil => exact ⟨_, .quiet (List.nil_append []).symm (by simp) allTaken_nil (by simp)⟩
  | cons p rest ih =>
    by_cases hfirst : max start p.1 < windowEnd start stop raised ∨
        max start p.1 = windowEnd start stop raised ∧ favours 0 = .item
    · obtain ⟨t, item⟩ := p
      cases hlost : lost? item with
      | some reason =>
        exact ⟨_, .lost (List.nil_append _).symm (by simp) hlost (allTaken_cons.2 ⟨hfirst, allTaken_nil⟩)⟩
      | none =>
        have hharmless := (lost?_eq_none_iff item).1 hlost
        obtain ⟨out, hout⟩ := ih fun n => favours (n + 1)
        cases hout with
        | @lost before after t' item' reason hitems hbefore hlost htaken =>
          have hsplit : (t, item) :: rest = ((t, item) :: before) ++ (t', item') :: after :=
            congrArg _ hitems
          refine ⟨_, .lost hsplit ?_ hlost (allTaken_cons.2 ⟨hfirst, htaken⟩)⟩
          simpa [hharmless] using hbefore
        | @quiet before after hitems hbefore htaken hleft =>
          have hsplit : (t, item) :: rest = ((t, item) :: before) ++ after := congrArg _ hitems
          refine ⟨_, .quiet hsplit ?_ (allTaken_cons.2 ⟨hfirst, htaken⟩) fun q rest hafter hall => ?_⟩
          · simpa [hharmless] using hbefore
          · exact hleft q rest hafter (allTaken_cons.1 hall).2
    · refine ⟨_, .quiet (List.nil_append _).symm (by simp) allTaken_nil fun q rest' hafter hall => ?_⟩
      cases hafter
      exact hfirst (allTaken_cons.1 hall).1

theorem WindowEnds.eq (h : WindowEnds favours start stop raised items out) :
    watchWindow start stop raised favours items = out := by
  cases h with
  | lost hitems hbefore hlost htaken => exact hitems ▸ watchWindow_of_lost hbefore hlost htaken
  | quiet hitems hbefore htaken hleft => exact hitems ▸ watchWindow_of_quiet hbefore htaken hleft

/-- A stream that closes right when the time is up may be noticed. -/
example :
    watchWindow 0 30 none (fun _ => .item) [(30, none)] = (30, .lost "event stream closed") ∧
      watchWindow 0 30 none (fun _ => .timer) [(30, none)] = (30, .stable) := by
  decide

theorem not_harmless {item : Option (Except ApiError NodeEvent)} {reason : String}
    (h : lost? item = some reason) : ¬ Harmless item := by
  rw [← lost?_eq_none_iff, h]
  simp

/-- Before the end of a quiet window everything that is taken is harmless. -/
theorem harmless_of_quiet (hitems : items = before ++ after) (hbefore : ∀ p ∈ before, Harmless p.2)
    (hleft : ∀ p rest, after = p :: rest → ¬ AllTaken favours start stop (before ++ [p]))
    {front : List (Instant × Option (Except ApiError NodeEvent))} (hfront : front <+: items)
    (htaken : AllTaken favours start stop front) : ∀ p ∈ front, Harmless p.2 := by
  rcases List.prefix_or_prefix_of_prefix hfront (hitems ▸ List.prefix_append before after) with
    hshort | ⟨more, rfl⟩
  · exact fun p hp => hbefore p (hshort.subset hp)
  cases more with
  | nil => simpa using hbefore
  | cons q more =>
    have hafter : after = q :: (after.drop 1) := by
      rw [hitems, List.prefix_append_right_inj] at hfront
      obtain ⟨tail, rfl⟩ := hfront
      rfl
    refine absurd (htaken.of_prefix ?_) (hleft q _ hafter)
    exact ⟨more, by simp⟩

theorem harmless_of_seen_lt (hsorted : items.Pairwise (·.1 ≤ ·.1))
    (hquiet : ∀ front, front <+: items → AllTaken favours start stop front → ∀ p ∈ front, Harmless p.2) :
    ∀ p ∈ items, max start p.1 < stop → Harmless p.2 := by
  intro p hp hlt
  obtain ⟨before, after, rfl⟩ := List.append_of_mem hp
  have hearlier : ∀ q ∈ before ++ [p], max start q.1 < stop := by
    intro q hq
    rcases List.mem_append.1 hq with hq | hq
    · have hle := (List.pairwise_append.1 hsorted).2.2 q hq p (by simp)
      exact (max_le_max le_rfl hle).trans_lt hlt
    · rwa [List.mem_singleton.1 hq]
  exact hquiet (before ++ [p]) ⟨after, by simp⟩ (allTaken_of_lt hearlier) p (by simp)

/-- A window that ends with its time was quiet, and the signal was not raised before. -/
theorem WindowEnds.of_stable {time : Instant}
    (h : WindowEnds favours start stop raised items (time, .stable)) :
    time = stop ∧ (∀ c, raised = some c → stop ≤ max start c) ∧
      ∀ front, front <+: items → AllTaken favours start stop front → ∀ p ∈ front, Harmless p.2 := by
  generalize hout : (time, Sight.stable) = out at h
  cases h with
  | lost => cases hout
  | quiet hitems hbefore htaken hleft =>
    obtain ⟨rfl, hend, hraised⟩ := quietUntil_eq_stable hout.symm
    rw [hend] at hleft
    exact ⟨rfl, hraised, fun front hfront => harmless_of_quiet hitems hbefore hleft hfront⟩

theorem harmless_of_lt {t : Instant} {item : Option (Except ApiError NodeEvent)}
    (hsorted : items.Pairwise (·.1 ≤ ·.1)) (hitems : items = before ++ (t, item) :: after)
    (hbefore : ∀ p ∈ before, Harmless p.2) : ∀ p ∈ items, p.1 < t → Harmless p.2 := by
  intro p hp hlt
  rw [hitems] at hp hsorted
  have hafter : ∀ q ∈ after, t ≤ q.1 :=
    (List.pairwise_cons.1 (List.pairwise_append.1 hsorted).2.1).1
  rcases List.mem_append.1 hp with hp | hp
  · exact hbefore p hp
  rcases List.mem_cons.1 hp with rfl | hp
  · exact absurd hlt (Nat.lt_irrefl _)
  · exact absurd hlt (Nat.not_lt.2 (hafter p hp))

end Windows
end Rollout
