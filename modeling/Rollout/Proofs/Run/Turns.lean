import Mathlib.Data.List.Nodup
import Rollout.Proofs.Run.Growth

/-!
# Turns

A run changes its nodes one after the other, and the first error ends it. `Series` and `Turnwise` say
this of any kind of turn: `turn i` is all that a turn of `i` can come to, from the world it begins in.
Each entry that turns leave in the journal stands in one of them, so what a run leaves is known once a
turn is.
-/

namespace Rollout

variable {σ ι α β : Type}

/-- The turns of the items, begun in `w`, are over in `w'`, each without an error. -/
inductive Series (turn : ι → World σ → Except Stop α → World σ → Prop) :
    List ι → World σ → List α → World σ → Prop
  | nil {w} : Series turn [] w [] w
  | cons {i rest w a as w₁ w'} (hturn : turn i w (.ok a) w₁) (hrest : Series turn rest w₁ as w') :
      Series turn (i :: rest) w (a :: as) w'

/-- The items have their turns, begun in `w`: all turns are over in the end, or one fails after some
are. -/
inductive Turnwise (turn : ι → World σ → Except Stop α → World σ → Prop) (items : List ι)
    (w : World σ) : Except Stop (List α) → World σ → Prop
  | finished {as w'} (h : Series turn items w as w') : Turnwise turn items w (.ok as) w'
  | stopped {done i later as v stop w'} (hitems : items = done ++ i :: later)
      (h : Series turn done w as v) (hstop : turn i v (.error stop) w') :
      Turnwise turn items w (.error stop) w'

/-- The turn of `i` begins in `v`, `later` have theirs after it: the turns of all items before it are
over, and `front` is what they left in the journal. -/
inductive TurnBegins (turn : ι → World σ → Except Stop α → World σ → Prop) (items : List ι)
    (w : World σ) (front : List Entry) (i : ι) (later : List ι) (v : World σ) : Prop
  | intro {earlier as} (hitems : items = earlier ++ i :: later)
      (hearlier : Series turn earlier w as v) (hfront : w.Gains v front) :
      TurnBegins turn items w front i later v

/-- Where an entry stands in what turns leave in the journal: it belongs to the turn of `i`. If that turn
is over the later items have theirs, and if all are over its result is among the results. -/
inductive Stands (turn : ι → World σ → Except Stop α → World σ → Prop) (items : List ι)
    (w : World σ) (before : List Entry) (e : Entry) (after : List Entry)
    (r : Except Stop (List α)) (w' : World σ) : Prop
  | intro {i later v front mid back rest u r₁} (hbegins : TurnBegins turn items w front i later v)
      (hbefore : before = front ++ mid) (hturn : turn i v r₁ u)
      (hpiece : v.Gains u (mid ++ e :: back)) (hafter : after = back ++ rest)
      (hrest : u.Gains w' rest)
      (hnext : (∃ a r₂, r₁ = .ok a ∧ Turnwise turn later u r₂ w') ∨
        ∃ stop, r₁ = .error stop ∧ r = .error stop ∧ u = w')
      (hresult : ∀ as, r = .ok as → ∃ a, r₁ = .ok a ∧ (i, a) ∈ items.zip as) :
      Stands turn items w before e after r w'

variable {turn : ι → World σ → Except Stop α → World σ → Prop} {items rest : List ι} {i : ι}
  {w w' : World σ} {r : Except Stop (List α)} {es : List Entry}

theorem Series.length_eq {as : List α} (h : Series turn items w as w') :
    as.length = items.length := by
  induction h with
  | nil => rfl
  | cons _ _ ih => simp [ih]

theorem Series.map_fst_zip {κ : Type} {f : ι → κ} {as : List α} (h : Series turn items w as w') :
    ((items.map f).zip as).map (·.1) = items.map f :=
  List.map_fst_zip (by simp [h.length_eq])

theorem Series.map_snd_zip {κ : Type} {f : ι → κ} {as : List α} (h : Series turn items w as w') :
    ((items.map f).zip as).map (·.2) = as :=
  List.map_snd_zip (by simp [h.length_eq])

theorem Series.append_cases {done : List ι} {as : List α} (h : Series turn (done ++ rest) w as w') :
    ∃ as₁ as₂ v, Series turn done w as₁ v ∧ Series turn rest v as₂ w' := by
  induction done generalizing w as with
  | nil => exact ⟨[], as, w, .nil, h⟩
  | cons i done ih =>
    cases h with
    | cons hturn hrest =>
      obtain ⟨as₁, as₂, v, hdone, hrest⟩ := ih hrest
      exact ⟨_ :: as₁, as₂, v, .cons hturn hdone, hrest⟩

theorem Series.exists_turn {as : List α} {a : α} (h : Series turn items w as w')
    (hmem : (i, a) ∈ items.zip as) :
    ∃ earlier later as₁ as₂ v u, items = earlier ++ i :: later ∧ Series turn earlier w as₁ v ∧
      turn i v (.ok a) u ∧ Series turn later u as₂ w' := by
  induction h with
  | nil => simp at hmem
  | @cons i' rest w a' as w₁ w' hturn hrest ih =>
    rcases List.mem_cons.1 hmem with hhead | hmem
    · cases hhead
      exact ⟨[], rest, [], as, w, w₁, rfl, .nil, hturn, hrest⟩
    · obtain ⟨earlier, later, as₁, as₂, v, u, rfl, hearlier, hthis, hlater⟩ := ih hmem
      exact ⟨i' :: earlier, later, a' :: as₁, as₂, v, u, rfl, .cons hturn hearlier, hthis, hlater⟩

theorem Series.exists_turn_of_mem {as : List α} (h : Series turn items w as w') (hi : i ∈ items) :
    ∃ earlier later as₁ a as₂ v u, items = earlier ++ i :: later ∧ Series turn earlier w as₁ v ∧
      turn i v (.ok a) u ∧ Series turn later u as₂ w' := by
  have hfst : (items.zip as).map Prod.fst = items := List.map_fst_zip h.length_eq.ge
  rw [← hfst] at hi
  obtain ⟨⟨_, a⟩, hmem, rfl⟩ := List.mem_map.1 hi
  obtain ⟨earlier, later, as₁, as₂, v, u, hitems, hearlier, hturn, hlater⟩ := h.exists_turn hmem
  exact ⟨earlier, later, as₁, a, as₂, v, u, hitems, hearlier, hturn, hlater⟩

theorem Series.keeps {κ : Type} {f : World σ → κ} {as : List α} (h : Series turn items w as w')
    (hturn : ∀ i ∈ items, ∀ w a w', turn i w (.ok a) w' → f w' = f w) : f w' = f w := by
  induction h with
  | nil => rfl
  | cons hfirst _ ih =>
    have hrest := ih fun i hi => hturn i (List.mem_cons_of_mem _ hi)
    exact hrest.trans (hturn _ List.mem_cons_self _ _ _ hfirst)

/-- If every turn that is over is one of the visits `V`, a series leaves the journals of such visits, one
after the other. -/
theorem Series.exists_visits {V : Type} (item : V → ι) (result : V → α) (log : V → List Entry)
    {as : List α} (h : Series turn items w as w')
    (hturn : ∀ i w a w', turn i w (.ok a) w' → ∃ v, item v = i ∧ result v = a ∧ w.Gains w' (log v)) :
    ∃ visits : List V, visits.map item = items ∧ visits.map result = as ∧
      w.Gains w' (visits.flatMap log) := by
  induction h with
  | @nil w => exact ⟨[], rfl, rfl, .refl w⟩
  | cons hfirst _ ih =>
    obtain ⟨v, rfl, rfl, hlog⟩ := hturn _ _ _ _ hfirst
    obtain ⟨visits, rfl, rfl, hlogs⟩ := ih
    exact ⟨v :: visits, rfl, rfl, hlog.trans hlogs⟩

theorem TurnBegins.gains {front : List Entry} {later : List ι} {v : World σ}
    (h : TurnBegins turn items w front i later v) : w.Gains v front := by
  obtain ⟨-, -, hfront⟩ := h
  exact hfront

theorem TurnBegins.mem {front : List Entry} {later : List ι} {v : World σ}
    (h : TurnBegins turn items w front i later v) : i ∈ items := by
  obtain ⟨rfl, -, -⟩ := h
  simp

namespace Turnwise

theorem nil_cases (h : Turnwise turn [] w r w') : r = .ok [] ∧ w' = w := by
  cases h with
  | finished h =>
    cases h
    exact ⟨rfl, rfl⟩
  | stopped hitems => simp at hitems

/-- The first turn fails, or it is over and the rest have theirs. -/
theorem cons_cases (h : Turnwise turn (i :: rest) w r w') :
    (∃ stop, r = .error stop ∧ turn i w (.error stop) w') ∨
      ∃ a w₁ r₁, turn i w (.ok a) w₁ ∧ Turnwise turn rest w₁ r₁ w' ∧ r = r₁.map (a :: ·) := by
  cases h with
  | finished h =>
    cases h with
    | cons hturn hrest => exact .inr ⟨_, _, _, hturn, .finished hrest, rfl⟩
  | @stopped done i' later as v stop w' hitems h hstop =>
    cases h with
    | nil =>
      obtain ⟨rfl, -⟩ := List.cons.inj hitems
      exact .inl ⟨stop, rfl, hstop⟩
    | cons hturn hrest =>
      obtain ⟨rfl, hrest'⟩ := List.cons.inj hitems
      exact .inr ⟨_, _, _, hturn, .stopped hrest' hrest hstop, rfl⟩

theorem cons {a : α} {w₁ : World σ} (hturn : turn i w (.ok a) w₁)
    (hrest : Turnwise turn rest w₁ r w') : Turnwise turn (i :: rest) w (r.map (a :: ·)) w' := by
  cases hrest with
  | finished h => exact .finished (.cons hturn h)
  | stopped hitems h hstop =>
    subst hitems
    exact .stopped (List.cons_append ..).symm (.cons hturn h) hstop

variable {P : ι → Call → Prop}

theorem extends_of_turns (hturn : ∀ i w r w', turn i w r w' → w.Extends (P i) w')
    (h : Turnwise turn items w r w') : w.Extends (fun c => ∃ i ∈ items, P i c) w' := by
  induction items generalizing w r with
  | nil =>
    obtain ⟨-, rfl⟩ := h.nil_cases
    exact .refl w'
  | cons i rest ih =>
    rcases h.cons_cases with ⟨stop, -, hfirst⟩ | ⟨a, w₁, r₁, hfirst, hrest, -⟩
    · exact (hturn _ _ _ _ hfirst).mono fun c hc => ⟨i, by simp, hc⟩
    · have hcalls : w.Extends (fun c => ∃ i' ∈ i :: rest, P i' c) w₁ :=
        (hturn _ _ _ _ hfirst).mono fun c hc => ⟨i, by simp, hc⟩
      refine hcalls.trans ((ih hrest).mono ?_)
      rintro c ⟨i', hmem, hc⟩
      exact ⟨i', List.mem_cons_of_mem i hmem, hc⟩

/-- What every turn keeps holds in the end. Of what the turns leave meanwhile, and of their results, all is
true that is true of a turn while this holds. -/
theorem invariant {I : World σ → Prop} {Q : Entry → Prop} {R : α → Prop}
    (hextends : ∀ i w r w', turn i w r w' → w.Extends (P i) w')
    (hturn : ∀ i ∈ items, ∀ w r w' es, turn i w r w' → w.Gains w' es → I w →
      I w' ∧ (∀ e ∈ es, Q e) ∧ ∀ a, r = .ok a → R a)
    (h : Turnwise turn items w r w') (hes : w.Gains w' es) (hw : I w) :
    I w' ∧ (∀ e ∈ es, Q e) ∧ ∀ as, r = .ok as → ∀ a ∈ as, R a := by
  induction items generalizing w r es with
  | nil =>
    obtain ⟨rfl, rfl⟩ := h.nil_cases
    obtain rfl := hes.unique (.refl w')
    refine ⟨hw, by simp, ?_⟩
    rintro as ⟨⟩
    simp
  | cons i rest ih =>
    obtain ⟨hthis, hothers⟩ := List.forall_mem_cons.1 hturn
    rcases h.cons_cases with ⟨stop, rfl, hfirst⟩ | ⟨a, w₁, r₁, hfirst, hrest, rfl⟩
    · obtain ⟨hw', hcalls, -⟩ := hthis _ _ _ _ hfirst hes hw
      exact ⟨hw', hcalls, by simp⟩
    · obtain ⟨log, hlog, -⟩ := (hextends _ _ _ _ hfirst).gains
      obtain ⟨later, hlater, -⟩ := (extends_of_turns hextends hrest).gains
      obtain rfl := hes.unique (hlog.trans hlater)
      obtain ⟨hw₁, hcalls, ha⟩ := hthis _ _ _ _ hfirst hlog hw
      obtain ⟨hw', hcalls', has⟩ := ih hothers hrest hlater hw₁
      refine ⟨hw', List.forall_mem_append.2 ⟨hcalls, hcalls'⟩, fun as hr => ?_⟩
      cases r₁ with
      | error => cases hr
      | ok as' =>
        cases hr
        exact List.forall_mem_cons.2 ⟨ha a rfl, has as' rfl⟩

theorem stands (hturn : ∀ i w r w', turn i w r w' → w.Extends (P i) w')
    (h : Turnwise turn items w r w') {before after : List Entry} {e : Entry}
    (hes : w.Gains w' (before ++ e :: after)) : Stands turn items w before e after r w' := by
  induction items generalizing w r before with
  | nil =>
    obtain ⟨-, rfl⟩ := h.nil_cases
    have hnone := hes.unique (.refl w')
    simp at hnone
  | cons i rest ih =>
    rcases h.cons_cases with ⟨stop, rfl, hfirst⟩ | ⟨a, w₁, r₁, hfirst, hrest, rfl⟩
    · refine .intro (.intro (List.nil_append _).symm .nil (.refl w)) rfl hfirst hes
        (List.append_nil _).symm (.refl w') (.inr ⟨stop, rfl, rfl, rfl⟩) ?_
      rintro as ⟨⟩
    · obtain ⟨log, hlog, -⟩ := (hturn _ _ _ _ hfirst).gains
      obtain ⟨es, hgains, -⟩ := (extends_of_turns hturn hrest).gains
      have hjournal : log ++ es = before ++ e :: after := (hlog.trans hgains).unique hes
      rcases append_eq_append_cons_cases hjournal with ⟨mid, rfl, rfl⟩ | ⟨mid, rfl, rfl⟩
      · refine .intro (.intro (List.nil_append _).symm .nil (.refl w)) rfl hfirst hlog rfl hgains
          (.inl ⟨a, r₁, rfl, hrest⟩) fun as has => ?_
        cases r₁ with
        | error => cases has
        | ok as' =>
          cases has
          exact ⟨a, rfl, List.mem_cons_self⟩
      · obtain ⟨⟨hitems, hearlier, hfront⟩, hbefore, hturn', hpiece, hafter, hrest', hnext, hresult⟩ :=
          ih hrest hgains
        subst hitems hbefore
        refine .intro (.intro (List.cons_append ..).symm (.cons hfirst hearlier) (hlog.trans hfront))
          (List.append_assoc ..).symm hturn' hpiece hafter hrest' ?_ fun as has => ?_
        · rcases hnext with hnext | ⟨stop, rfl, rfl, rfl⟩
          · exact .inl hnext
          · exact .inr ⟨stop, rfl, rfl, rfl⟩
        · cases r₁ with
          | error => cases has
          | ok as' =>
            cases has
            obtain ⟨a', ha', hmem⟩ := hresult as' rfl
            exact ⟨a', ha', List.mem_cons_of_mem _ hmem⟩

/-- The error of turns is that of one of them, in which all ends. -/
theorem exists_failed {stop : Stop} (hturn : ∀ i w r w', turn i w r w' → w.Extends (P i) w')
    (h : Turnwise turn items w (.error stop) w') :
    ∃ front i later v, TurnBegins turn items w front i later v ∧ turn i v (.error stop) w' := by
  cases h with
  | stopped hitems hdone hstop =>
    obtain ⟨front, hfront, -⟩ := (extends_of_turns hturn (.finished hdone)).gains
    exact ⟨front, _, _, _, .intro hitems hdone hfront, hstop⟩

/-- What each turn leaves once at most, and only the turns of some items, is left no more often than
there are such items. -/
theorem countP_le {p : Entry → Bool} {q : ι → Bool}
    (hturn : ∀ i w r w', turn i w r w' → w.Extends (P i) w')
    (hcount : ∀ i w r w' es, turn i w r w' → w.Gains w' es → es.countP p ≤ if q i then 1 else 0)
    (h : Turnwise turn items w r w') (hes : w.Gains w' es) : es.countP p ≤ items.countP q := by
  induction items generalizing w r es with
  | nil =>
    obtain ⟨-, rfl⟩ := h.nil_cases
    obtain rfl := hes.unique (.refl w')
    simp
  | cons i rest ih =>
    rw [List.countP_cons]
    rcases h.cons_cases with ⟨stop, -, hfirst⟩ | ⟨a, w₁, r₁, hfirst, hrest, -⟩
    · have hone := hcount _ _ _ _ _ hfirst hes
      omega
    · obtain ⟨log, hlog, -⟩ := (hturn _ _ _ _ hfirst).gains
      obtain ⟨es', hgains, -⟩ := (extends_of_turns hturn hrest).gains
      obtain rfl := hes.unique (hlog.trans hgains)
      rw [List.countP_append]
      have hone := hcount _ _ _ _ _ hfirst hlog
      have hmore := ih hrest hgains
      omega

/-- If no two items have a key in common, what is only left in turns of one key is left once at most. -/
theorem countP_le_one {κ : Type} [DecidableEq κ] {key : ι → κ} {k : κ} {p : Entry → Bool}
    (hturn : ∀ i w r w', turn i w r w' → w.Extends (P i) w')
    (hcount : ∀ i w r w' es, turn i w r w' → w.Gains w' es →
      es.countP p ≤ if key i == k then 1 else 0)
    (hkeys : (items.map key).Nodup) (h : Turnwise turn items w r w') (hes : w.Gains w' es) :
    es.countP p ≤ 1 := by
  calc es.countP p
    _ ≤ items.countP (key · == k) := h.countP_le hturn hcount hes
    _ = (items.map key).count k := by rw [List.count, List.countP_map]; rfl
    _ ≤ 1 := List.nodup_iff_count_le_one.1 hkeys k

/-- Of turns that can only come to one end, those that follow the first few are left. -/
theorem of_series (hunique : ∀ i w r w' r₁ w₁, turn i w r w' → turn i w r₁ w₁ → r = r₁ ∧ w' = w₁)
    {earlier : List ι} {as : List α} {v : World σ} (hearlier : Series turn earlier w as v)
    (h : Turnwise turn (earlier ++ rest) w r w') :
    ∃ r₁, Turnwise turn rest v r₁ w' ∧ r = r₁.map (as ++ ·) := by
  induction hearlier generalizing r with
  | nil =>
    refine ⟨r, h, ?_⟩
    cases r <;> rfl
  | cons hturn _ ih =>
    rcases cons_cases h with ⟨stop, rfl, hfirst⟩ | ⟨a, w₁, r₁, hfirst, hrest, rfl⟩
    · cases (hunique _ _ _ _ _ _ hturn hfirst).1
    · obtain ⟨ha, rfl⟩ := hunique _ _ _ _ _ _ hturn hfirst
      cases ha
      obtain ⟨r₂, htail, rfl⟩ := ih hrest
      refine ⟨r₂, htail, ?_⟩
      cases r₂ <;> rfl

theorem eq_of_failed (hunique : ∀ i w r w' r₁ w₁, turn i w r w' → turn i w r₁ w₁ → r = r₁ ∧ w' = w₁)
    (h : Turnwise turn items w r w') {front : List Entry} {later : List ι} {v u : World σ} {stop : Stop}
    (hbegins : TurnBegins turn items w front i later v) (hstop : turn i v (.error stop) u) :
    r = .error stop ∧ u = w' := by
  obtain ⟨rfl, hearlier, -⟩ := hbegins
  obtain ⟨r₁, hrest, rfl⟩ := of_series hunique hearlier h
  rcases hrest.cons_cases with ⟨stop', rfl, hturn⟩ | ⟨a, w₁, r₂, hturn, -, -⟩
  · obtain ⟨hr, rfl⟩ := hunique _ _ _ _ _ _ hstop hturn
    cases hr
    exact ⟨rfl, rfl⟩
  · cases (hunique _ _ _ _ _ _ hstop hturn).1

/-- What happens once a turn at most, and a while before the turn is over, happens that while apart. -/
theorem spaced {stamp : Entry → Option Instant} {d : Duration}
    (hturn : ∀ i w r w', turn i w r w' → w.Extends (P i) w')
    (hstamp : ∀ e t, stamp e = some t → e.time = t)
    (hone : ∀ i w r w' es, turn i w r w' → w.Gains w' es → (es.filterMap stamp).length ≤ 1)
    (hend : ∀ i w a w' es, turn i w (.ok a) w' → w.Gains w' es →
      ∀ t ∈ es.filterMap stamp, t + d ≤ w'.now)
    (h : Turnwise turn items w r w') (hes : w.Gains w' es) :
    (es.filterMap stamp).Pairwise (fun t t' => t + d ≤ t') ∧ ∀ t ∈ es.filterMap stamp, w.now ≤ t := by
  have hlate {i : ι} {w w' : World σ} {r : Except Stop α} {es : List Entry} (h : turn i w r w')
      (hes : w.Gains w' es) : ∀ t ∈ es.filterMap stamp, w.now ≤ t := by
    intro t ht
    obtain ⟨e, he, hte⟩ := List.mem_filterMap.1 ht
    obtain ⟨es', hes', hall⟩ := (hturn _ _ _ _ h).gains
    obtain rfl := hes.unique hes'
    exact hstamp e t hte ▸ (hall e he).2.1
  have hsingle {ts : List Instant} (h : ts.length ≤ 1) : ts.Pairwise (fun t t' => t + d ≤ t') := by
    match ts, h with
    | [], _ => exact .nil
    | [t], _ => exact List.pairwise_singleton _ t
  induction items generalizing w r es with
  | nil =>
    obtain ⟨-, rfl⟩ := h.nil_cases
    obtain rfl := hes.unique (.refl w')
    simp
  | cons i rest ih =>
    rcases h.cons_cases with ⟨stop, -, hfirst⟩ | ⟨a, w₁, r₁, hfirst, hrest, -⟩
    · exact ⟨hsingle (hone _ _ _ _ _ hfirst hes), hlate hfirst hes⟩
    · obtain ⟨log, hlog, -⟩ := (hturn _ _ _ _ hfirst).gains
      obtain ⟨es', hgains, -⟩ := (extends_of_turns hturn hrest).gains
      obtain rfl := hes.unique (hlog.trans hgains)
      obtain ⟨hspaced, hbound⟩ := ih hrest hgains
      have hnow : w.now ≤ w₁.now := (hturn _ _ _ _ hfirst).now_le
      rw [List.filterMap_append]
      constructor
      · refine List.pairwise_append.2 ⟨hsingle (hone _ _ _ _ _ hfirst hlog), hspaced, ?_⟩
        intro t ht t' ht'
        exact (hend _ _ _ _ _ hfirst hlog t ht).trans (hbound t' ht')
      · intro t ht
        rcases List.mem_append.1 ht with ht | ht
        · exact hlate hfirst hlog t ht
        · exact hnow.trans (hbound t ht)

end Turnwise

theorem ne_of_nodup_middle {κ : Type} {f : ι → κ} {before after : List ι}
    (h : ((before ++ i :: after).map f).Nodup) : ∀ x ∈ before ++ after, f x ≠ f i := by
  rw [List.map_append, List.map_cons, List.nodup_middle, List.nodup_cons, ← List.map_append] at h
  intro x hx heq
  exact h.1 (heq ▸ List.mem_map_of_mem hx)

theorem split_eq_of_nodup {κ : Type} {f : ι → κ} {before after front back : List ι} {i j : ι}
    (hnodup : (items.map f).Nodup) (h : items = before ++ i :: after)
    (h' : items = front ++ j :: back) (hf : f j = f i) : front = before ∧ j = i ∧ back = after := by
  subst h
  have hother := ne_of_nodup_middle hnodup
  rcases append_eq_append_cons_cases h' with ⟨mid, rfl, -⟩ | ⟨mid, rfl, hmid⟩
  · exact absurd hf (hother j (by simp))
  · cases mid with
    | nil =>
      obtain ⟨rfl, rfl⟩ := List.cons.inj hmid
      simp
    | cons x mid =>
      obtain ⟨-, rfl⟩ := List.cons.inj hmid
      exact absurd hf (hother j (by simp))

namespace Work

variable {S : Setting σ} {x : Work σ α}

theorem ends_map_iff {f : α → β} {r : Except Stop β} :
    (f <$> x).Ends S w r w' ↔ ∃ r₁, x.Ends S w r₁ w' ∧ r = r₁.map f := by
  rw [map_eq_pure_bind, ends_bind_iff]
  constructor
  · rintro (⟨a, w₁, hx, hf⟩ | ⟨e, hx, rfl⟩)
    · obtain ⟨rfl, rfl⟩ := ends_pure_iff.1 hf
      exact ⟨.ok a, hx, rfl⟩
    · exact ⟨.error e, hx, rfl⟩
  · rintro ⟨e | a, hx, rfl⟩
    · exact .inr ⟨e, hx, rfl⟩
    · exact .inl ⟨a, w', hx, ends_pure_iff.2 ⟨rfl, rfl⟩⟩

protected theorem Runs.map {P : Call → Prop} {f : α → β} (h : x.Runs S P) : (f <$> x).Runs S P := by
  rw [map_eq_pure_bind]
  exact .bind h fun a => .pure (f a)

protected theorem Runs.mapM {P : Call → Prop} {f : ι → Work σ α} (h : ∀ i ∈ items, (f i).Runs S P) :
    (items.mapM f).Runs S P := by
  induction items with
  | nil =>
    rw [List.mapM_nil]
    exact .pure []
  | cons i rest ih =>
    rw [List.mapM_cons]
    refine .bind (h i List.mem_cons_self) fun a => .bind (ih fun i' hi' => ?_) fun _ => .pure _
    exact h i' (List.mem_cons_of_mem i hi')

theorem turnwise_of_ends_mapM {f : ι → Work σ α} (h : (items.mapM f).Ends S w r w') :
    Turnwise (fun i => (f i).Ends S) items w r w' := by
  induction items generalizing w r with
  | nil =>
    rw [List.mapM_nil] at h
    obtain ⟨rfl, rfl⟩ := ends_pure_iff.1 h
    exact .finished .nil
  | cons i rest ih =>
    rw [List.mapM_cons] at h
    rcases ends_bind_iff.1 h with ⟨a, w₁, hfirst, hrest⟩ | ⟨stop, hfirst, rfl⟩
    · rw [← map_eq_pure_bind] at hrest
      obtain ⟨r₁, htail, rfl⟩ := ends_map_iff.1 hrest
      exact .cons hfirst (ih htail)
    · exact .stopped (List.nil_append _).symm .nil hfirst

end Work
end Rollout
