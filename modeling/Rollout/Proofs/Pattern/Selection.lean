import Rollout.Proofs.Pattern.Preference

/-!
# Where the ways of matching end

`Pattern.behind` follows all matches at once and knows only where they can end; `Pattern.ways` knows each of
them. The two agree: a place is behind a match that starts at a place if a way to match takes what is
between them. Only the counts of rounds are not the same. A text of `n` characters has at most `n` rounds that
take something, so `behind` counts no further than `n + 1`, and `ways` ends a repetition with the first round
that takes nothing.
-/

namespace Rollout.Pattern

/-! ## Counting rounds -/

inductive Rounds (S : Nat → Nat → Prop) : (n i j : Nat) → Prop
  | none {i} : Rounds S 0 i i
  | more {n i j k} (first : S i j) (rest : Rounds S n j k) : Rounds S (n + 1) i k

namespace Rounds

variable {S : Nat → Nat → Prop} {n m i j : Nat}

@[simp] theorem zero_iff : Rounds S 0 i j ↔ i = j := by
  constructor
  · rintro ⟨⟩
    rfl
  · rintro rfl
    exact .none

theorem succ_iff : Rounds S (n + 1) i j ↔ ∃ k, S i k ∧ Rounds S n k j := by
  constructor
  · rintro (_ | ⟨first, rest⟩)
    exact ⟨_, first, rest⟩
  · rintro ⟨k, first, rest⟩
    exact .more first rest

section

variable (hS : ∀ {i j}, S i j → i ≤ j)
include hS

theorem le (h : Rounds S n i j) : i ≤ j := by
  induction h with
  | none => exact Nat.le_refl _
  | more first _ ih => exact (hS first).trans ih

/-- Of more rounds than there are places between, one takes nothing: it can be left out. -/
theorem pred (h : Rounds S (n + 1) i j) (hj : j ≤ i + n) : Rounds S n i j := by
  induction n generalizing i with
  | zero =>
    obtain ⟨k, first, rest⟩ := succ_iff.1 h
    have hik := hS first
    have hkj : k = j := zero_iff.1 rest
    exact zero_iff.2 (by omega)
  | succ n ih =>
    obtain ⟨k, first, rest⟩ := succ_iff.1 h
    have hik := hS first
    by_cases hk : k = i
    · exact hk ▸ rest
    · exact .more first (ih rest (by omega))

theorem succ (h : Rounds S n i j) (hj : j < i + n) : Rounds S (n + 1) i j := by
  induction h with
  | none => omega
  | @more n i k j first rest ih =>
    have hik := hS first
    by_cases hk : k = i
    · subst hk
      exact .more first (.more first rest)
    · exact .more first (ih (by omega))

/-- More rounds than there are places between lead no further than one more than there are. -/
theorem min_iff (hj : j < i + m) : Rounds S (min n m) i j ↔ Rounds S n i j := by
  rcases Nat.le_total n m with hn | hm
  · rw [min_eq_left hn]
  · rw [min_eq_right hm]
    induction n, hm using Nat.le_induction with
    | base => rfl
    | succ n hm ih =>
      rw [ih]
      exact ⟨fun h => h.succ hS (by omega), fun h => h.pred hS (by omega)⟩

theorem exists_le (h : Rounds S n i j) : ∃ r ≤ min n (j - i), Rounds S r i j := by
  induction n with
  | zero => exact ⟨0, Nat.zero_le _, h⟩
  | succ n ih =>
    by_cases hn : n + 1 ≤ j - i
    · exact ⟨n + 1, Nat.le_min.2 ⟨Nat.le_refl _, hn⟩, h⟩
    · have hij := h.le hS
      obtain ⟨r, hr, hrounds⟩ := ih (h.pred hS (by omega))
      exact ⟨r, by omega, hrounds⟩

end

theorem exists_le_succ_iff : (∃ r ≤ n + 1, Rounds S r i j) ↔
    i = j ∨ ∃ k, S i k ∧ ∃ r ≤ n, Rounds S r k j := by
  constructor
  · rintro ⟨r, hr, h⟩
    cases h with
    | none => exact .inl rfl
    | more first rest => exact .inr ⟨_, first, _, by omega, rest⟩
  · rintro (rfl | ⟨k, first, r, hr, rest⟩)
    · exact ⟨0, by omega, .none⟩
    · exact ⟨r + 1, by omega, .more first rest⟩

end Rounds

/-! ## Places -/

theorem Places.mem_merge {a b : Places} {j : Nat} : j ∈ a.merge b ↔ j ∈ a ∨ j ∈ b := by
  fun_induction Places.merge a b with
  | case1 b => simp
  | case2 a => simp
  | case3 x a y b hlt ih => simp [ih, or_assoc]
  | case4 x a y b hnot hlt ih =>
    simp only [List.mem_cons, ih]
    tauto
  | case5 x a y b hnot hnot' ih =>
    obtain rfl : x = y := by omega
    simp only [List.mem_cons, ih]
    tauto

section

variable {S : Nat → Nat → Prop} {step : Places → Places} {size n j : Nat} {a : Places}

/-- The step follows `S` from every place in a text of this size, and stays in the text. -/
structure Follows (size : Nat) (step : Places → Places) (S : Nat → Nat → Prop) : Prop where
  mem_iff : ∀ a : Places, (∀ i ∈ a, i ≤ size) → ∀ j, j ∈ step a ↔ ∃ i ∈ a, S i j
  within : ∀ i j, i ≤ size → S i j → j ≤ size

theorem Follows.within_step (h : Follows size step S) (ha : ∀ i ∈ a, i ≤ size) :
    ∀ j ∈ step a, j ≤ size := by
  intro j hj
  obtain ⟨i, hi, hS⟩ := (h.mem_iff a ha j).1 hj
  exact h.within i j (ha i hi) hS

theorem Follows.within_rounds (h : Follows size step S) (ha : ∀ i ∈ a, i ≤ size) :
    ∀ j ∈ rounds step n a, j ≤ size := by
  induction n generalizing a with
  | zero => exact ha
  | succ n ih => exact ih (h.within_step ha)

theorem Follows.mem_rounds (h : Follows size step S) (ha : ∀ i ∈ a, i ≤ size) :
    j ∈ rounds step n a ↔ ∃ i ∈ a, Rounds S n i j := by
  induction n generalizing a with
  | zero => simp [rounds]
  | succ n ih =>
    rw [rounds, ih (h.within_step ha)]
    simp only [h.mem_iff a ha, Rounds.succ_iff]
    tauto

theorem Follows.mem_upTo (h : Follows size step S) (ha : ∀ i ∈ a, i ≤ size) :
    j ∈ upTo step n a ↔ ∃ i ∈ a, ∃ r ≤ n, Rounds S r i j := by
  induction n generalizing a with
  | zero => simp [upTo]
  | succ n ih =>
    rw [upTo, Places.mem_merge, ih (h.within_step ha)]
    simp only [h.mem_iff a ha, Rounds.exists_le_succ_iff]
    constructor
    · rintro (hj | ⟨k, ⟨i, hi, first⟩, rest⟩)
      · exact ⟨j, hj, .inl rfl⟩
      · exact ⟨i, hi, .inr ⟨k, first, rest⟩⟩
    · rintro ⟨i, hi, rfl | ⟨k, first, rest⟩⟩
      · exact .inl hi
      · exact .inr ⟨k, ⟨i, hi, first⟩, rest⟩

end

/-! ## What is taken -/

namespace Ways

variable {m m' : Ways} {text s : List Char} {before : Option Char} {n i j k : Nat}

/-- Only what is there is taken. -/
def Prefixing (m : Ways) : Prop := ∀ before s, ∀ t ∈ m before s, t <+: s

theorem Prefixing.andThen (h : m.Prefixing) (h' : m'.Prefixing) : (m.andThen m').Prefixing := by
  intro before s t ht
  simp only [Ways.andThen, List.mem_flatMap, List.mem_map] at ht
  obtain ⟨u, hu, v, hv, rfl⟩ := ht
  obtain ⟨rest, rfl⟩ := h before s u hu
  have hrest := h' _ _ v hv
  rw [List.drop_left] at hrest
  exact (List.prefix_append_right_inj u).2 hrest

theorem Prefixing.rounds (h : m.Prefixing) : (m.rounds n).Prefixing := by
  induction n with
  | zero =>
    intro before s t ht
    simp [Ways.rounds] at ht
    exact ht ▸ List.nil_prefix
  | succ n ih => exact h.andThen ih

/-- A greedy round takes what the round takes, and then what further rounds do. -/
theorem mem_greedy_succ {t : List Char} : t ∈ m.greedy (n + 1) before s ↔
    t = [] ∨ ∃ u ∈ m before s, u ≠ [] ∧
      ∃ v ∈ m.greedy n (u.getLast?.or before) (s.drop u.length), t = u ++ v := by
  simp only [greedy, List.mem_append, List.mem_flatMap, List.mem_singleton]
  constructor
  · rintro (⟨u, hu, ht⟩ | rfl)
    · cases u with
      | nil => exact .inl (by simpa using ht)
      | cons c u =>
        obtain ⟨v, hv, rfl⟩ := List.mem_map.1 ht
        exact .inr ⟨c :: u, hu, by simp, v, hv, rfl⟩
    · exact .inl rfl
  · rintro (rfl | ⟨u, hu, hne, v, hv, rfl⟩)
    · exact .inr rfl
    · exact .inl ⟨u, hu, by simpa [hne] using hv⟩

theorem nil_mem_greedy : [] ∈ m.greedy n before s := by
  cases n with
  | zero => simp [greedy]
  | succ n => exact mem_greedy_succ.2 (.inl rfl)

theorem Prefixing.greedy (h : m.Prefixing) : (m.greedy n).Prefixing := by
  induction n with
  | zero =>
    intro before s t ht
    simp [Ways.greedy] at ht
    exact ht ▸ List.nil_prefix
  | succ n ih =>
    intro before s t ht
    rcases mem_greedy_succ.1 ht with rfl | ⟨u, hu, -, v, hv, rfl⟩
    · exact List.nil_prefix
    · obtain ⟨rest, rfl⟩ := h before s u hu
      have hrest := ih _ _ v hv
      rw [List.drop_left] at hrest
      exact (List.prefix_append_right_inj u).2 hrest

/-- From place `i` of the text to place `j`. -/
def Takes (m : Ways) (text : List Char) (i j : Nat) : Prop :=
  ∃ t ∈ m (text.take i).getLast? (text.drop i), j = i + t.length

theorem Takes.le (h : m.Takes text i j) : i ≤ j := by
  obtain ⟨t, -, rfl⟩ := h
  exact Nat.le_add_right i t.length

theorem Takes.le_length (hm : m.Prefixing) (h : m.Takes text i j) (hi : i ≤ text.length) :
    j ≤ text.length := by
  obtain ⟨t, ht, rfl⟩ := h
  have hlength := (hm _ _ t ht).length_le
  rw [List.length_drop] at hlength
  omega

theorem getLast?_take_add {t : List Char} (ht : t <+: text.drop i) :
    (text.take (i + t.length)).getLast? = t.getLast?.or (text.take i).getLast? := by
  obtain ⟨rest, hrest⟩ := ht
  rw [List.take_add, ← hrest, List.take_left, List.getLast?_append]

theorem takes_andThen (hm : m.Prefixing) :
    (m.andThen m').Takes text i k ↔ ∃ j, m.Takes text i j ∧ m'.Takes text j k := by
  simp only [Takes, andThen, List.mem_flatMap, List.mem_map]
  constructor
  · rintro ⟨_, ⟨t, ht, u, hu, rfl⟩, rfl⟩
    rw [List.drop_drop, ← getLast?_take_add (hm _ _ t ht)] at hu
    exact ⟨_, ⟨t, ht, rfl⟩, u, hu, by simp [Nat.add_assoc]⟩
  · rintro ⟨_, ⟨t, ht, rfl⟩, u, hu, rfl⟩
    rw [getLast?_take_add (hm _ _ t ht), ← List.drop_drop] at hu
    exact ⟨t ++ u, ⟨t, ht, u, hu, rfl⟩, by simp [Nat.add_assoc]⟩

theorem takes_rounds (hm : m.Prefixing) :
    (m.rounds n).Takes text i j ↔ Rounds (m.Takes text) n i j := by
  induction n generalizing i with
  | zero => simp [Takes, rounds, eq_comm]
  | succ n ih =>
    rw [rounds, takes_andThen hm, Rounds.succ_iff]
    simp only [ih]

theorem takes_greedy_succ (hm : m.Prefixing) : (m.greedy (n + 1)).Takes text i j ↔
    i = j ∨ ∃ k, i ≠ k ∧ m.Takes text i k ∧ (m.greedy n).Takes text k j := by
  constructor
  · rintro ⟨t, ht, rfl⟩
    rcases mem_greedy_succ.1 ht with rfl | ⟨u, hu, hne, v, hv, rfl⟩
    · exact .inl rfl
    · rw [List.drop_drop, ← getLast?_take_add (hm _ _ u hu)] at hv
      have hpos : 0 < u.length := List.length_pos_iff.2 hne
      exact .inr ⟨i + u.length, by omega, ⟨u, hu, rfl⟩, v, hv, by simp [Nat.add_assoc]⟩
  · rintro (rfl | ⟨k, hik, ⟨u, hu, rfl⟩, v, hv, rfl⟩)
    · exact ⟨[], nil_mem_greedy, rfl⟩
    · rw [getLast?_take_add (hm _ _ u hu), ← List.drop_drop] at hv
      have hne : u ≠ [] := by
        rintro rfl
        exact hik rfl
      exact ⟨u ++ v, mem_greedy_succ.2 (.inr ⟨u, hu, hne, v, hv, rfl⟩), by simp [Nat.add_assoc]⟩

theorem Takes.greedy_succ (hm : m.Prefixing) (h : (m.greedy n).Takes text i j) :
    (m.greedy (n + 1)).Takes text i j := by
  induction n generalizing i with
  | zero =>
    obtain ⟨t, ht, rfl⟩ := h
    obtain rfl : t = [] := by simpa [greedy] using ht
    exact (takes_greedy_succ hm).2 (.inl rfl)
  | succ n ih =>
    rcases (takes_greedy_succ hm).1 h with rfl | ⟨k, hik, first, rest⟩
    · exact (takes_greedy_succ hm).2 (.inl rfl)
    · exact (takes_greedy_succ hm).2 (.inr ⟨k, hik, first, ih rest⟩)

/-- A round that takes nothing leads nowhere, so nothing is lost by ending with it. -/
theorem takes_greedy (hm : m.Prefixing) :
    (m.greedy n).Takes text i j ↔ ∃ r ≤ n, Rounds (m.Takes text) r i j := by
  induction n generalizing i with
  | zero => simp [Takes, greedy, eq_comm]
  | succ n ih =>
    rw [Rounds.exists_le_succ_iff, takes_greedy_succ hm]
    constructor
    · rintro (rfl | ⟨k, -, first, rest⟩)
      · exact .inl rfl
      · exact .inr ⟨k, first, ih.1 rest⟩
    · rintro (rfl | ⟨k, first, rest⟩)
      · exact .inl rfl
      · by_cases hik : i = k
        · subst hik
          exact (takes_greedy_succ hm).1 ((ih.2 rest).greedy_succ hm)
        · exact .inr ⟨k, hik, first, ih.2 rest⟩

end Ways

theorem prefixing_ways (p : Pattern) : p.ways.Prefixing := by
  induction p with
  | empty =>
    intro before s t ht
    simp [ways] at ht
    exact ht ▸ List.nil_prefix
  | set c =>
    intro before s t ht
    cases s with
    | nil => simp at ht
    | cons x s =>
      obtain ⟨-, rfl⟩ : c.contains x = true ∧ t = [x] := by simpa using ht
      exact List.prefix_append [x] s
  | look l =>
    intro before s t ht
    obtain ⟨-, rfl⟩ : l.holds before s.head? = true ∧ t = [] := by simpa [ways] using ht
    exact List.nil_prefix
  | seq p q hp hq => exact hp.andThen hq
  | alt p q hp hq =>
    intro before s t ht
    rcases List.mem_append.1 ht with ht | ht
    · exact hp before s t ht
    · exact hq before s t ht
  | times p least most hp =>
    intro before s t ht
    exact hp.rounds.andThen hp.greedy before s t ht

/-! ## The two agree -/

section

variable {text : List Char} {i j : Nat}

theorem takes_empty : empty.ways.Takes text i j ↔ i = j := by
  simp [Ways.Takes, ways, eq_comm]

theorem takes_set {c : CharSet} : (set c).ways.Takes text i j ↔
    j = i + 1 ∧ ∃ x, text[i]? = some x ∧ c.contains x = true := by
  have hhead : text[i]? = (text.drop i).head? := by rw [List.head?_drop]
  rw [Ways.Takes, hhead]
  cases text.drop i with
  | nil => simp
  | cons x s => by_cases hx : c.contains x = true <;> simp [hx]

theorem takes_look {l : Look} (hi : i ≤ text.length) :
    (look l).ways.Takes text i j ↔ j = i ∧ l.holdsAt text.toArray i = true := by
  have hbefore : (text.take i).getLast? = if i = 0 then none else text[i - 1]? := by
    cases i with
    | zero => rfl
    | succ i => simp [List.getLast?_eq_getElem?, Nat.min_eq_left hi]
  have hholds : l.holdsAt text.toArray i = l.holds (text.take i).getLast? (text.drop i).head? := by
    simp [Look.holdsAt, hbefore]
  rw [hholds, Ways.Takes]
  simp [ways, and_comm]

theorem takes_alt {p q : Pattern} :
    (alt p q).ways.Takes text i j ↔ p.ways.Takes text i j ∨ q.ways.Takes text i j := by
  simp [Ways.Takes, ways, or_and_right, exists_or]

/-- How many rounds there may be behind the least number. -/
def further (size least : Nat) : Option Nat → Nat
  | none => size + 1
  | some most => min (most - least) (size + 1)

/-- A repetition takes the least number of rounds, and then as many more as it may. -/
theorem takes_times {p : Pattern} {least : Nat} {most : Option Nat} (hi : i ≤ text.length) :
    (times p least most).ways.Takes text i j ↔
      ∃ k, Rounds (p.ways.Takes text) (min least (text.length + 1)) i k ∧
        ∃ r ≤ further text.length least most, Rounds (p.ways.Takes text) r k j := by
  have hS {i j : Nat} (h : p.ways.Takes text i j) : i ≤ j := h.le
  have hlength {n k j : Nat} (h : Rounds (p.ways.Takes text) n k j) (hk : k ≤ text.length) :
      j ≤ text.length := by
    induction h with
    | none => exact hk
    | more first _ ih => exact ih (first.le_length (prefixing_ways p) hk)
  change ((p.ways.rounds least).andThen (p.ways.greedy _)).Takes text i j ↔ _
  rw [Ways.takes_andThen (prefixing_ways p).rounds]
  simp only [Ways.takes_rounds (prefixing_ways p), Ways.takes_greedy (prefixing_ways p)]
  refine exists_congr fun k => ?_
  constructor
  · rintro ⟨hleast, r, hr, hmore⟩
    have hik := hleast.le hS
    have hk := hlength hleast hi
    have hj := hlength hmore hk
    refine ⟨(Rounds.min_iff hS (by omega)).2 hleast, ?_⟩
    obtain ⟨r', hr', hmore'⟩ := hmore.exists_le hS
    refine ⟨r', ?_, hmore'⟩
    cases most <;> simp only [further] at hr ⊢ <;> omega
  · rintro ⟨hleast, r, hr, hmore⟩
    have hik := hleast.le hS
    have hk := hlength hleast hi
    have hj := hlength hmore hk
    refine ⟨(Rounds.min_iff hS (by omega)).1 hleast, ?_⟩
    obtain ⟨r', hr', hmore'⟩ := hmore.exists_le hS
    refine ⟨r', ?_, hmore'⟩
    cases most <;> simp only [further, List.length_drop] at hr ⊢ <;> omega

/-- Where the pattern can end is where its ways of matching end. -/
theorem follows_behind (p : Pattern) (text : List Char) :
    Follows text.length (behind text.toArray p) (p.ways.Takes text) := by
  have hwithin (p : Pattern) (i j : Nat) (hi : i ≤ text.length) (h : p.ways.Takes text i j) :
      j ≤ text.length := h.le_length (prefixing_ways p) hi
  induction p with
  | empty =>
    refine ⟨fun a _ j => ?_, hwithin _⟩
    simp [behind, takes_empty]
  | set c =>
    refine ⟨fun a _ j => ?_, hwithin _⟩
    simp only [behind, List.mem_filterMap, takes_set, List.getElem?_toArray]
    refine exists_congr fun i => and_congr_right fun _ => ?_
    cases text[i]? with
    | none => simp
    | some x =>
      by_cases hx : c.contains x = true
      · simp only [hx, if_true, Option.some.injEq, exists_eq_left', and_true]
        exact eq_comm
      · simp [hx]
  | look l =>
    refine ⟨fun a ha j => ?_, hwithin _⟩
    rw [behind, List.mem_filter]
    constructor
    · rintro ⟨hj, hholds⟩
      exact ⟨j, hj, (takes_look (ha j hj)).2 ⟨rfl, hholds⟩⟩
    · rintro ⟨i, hi, htakes⟩
      obtain ⟨rfl, hholds⟩ := (takes_look (ha i hi)).1 htakes
      exact ⟨hi, hholds⟩
  | seq p q hp hq =>
    refine ⟨fun a ha j => ?_, hwithin _⟩
    rw [behind, hq.mem_iff _ (hp.within_step ha)]
    simp only [hp.mem_iff a ha, ways, Ways.takes_andThen (prefixing_ways p)]
    constructor
    · rintro ⟨k, ⟨i, hi, first⟩, second⟩
      exact ⟨i, hi, k, first, second⟩
    · rintro ⟨i, hi, k, first, second⟩
      exact ⟨k, ⟨i, hi, first⟩, second⟩
  | alt p q hp hq =>
    refine ⟨fun a ha j => ?_, hwithin _⟩
    rw [behind, Places.mem_merge, hp.mem_iff a ha, hq.mem_iff a ha, ← exists_or]
    simp only [takes_alt, and_or_left]
  | times p least most hp =>
    refine ⟨fun a ha j => ?_, hwithin _⟩
    have hmore : j ∈ behind text.toArray (times p least most) a ↔
        j ∈ upTo (behind text.toArray p) (further text.length least most)
          (rounds (behind text.toArray p) (min least (text.length + 1)) a) := by
      cases most <;> rfl
    rw [hmore, hp.mem_upTo (hp.within_rounds ha)]
    simp only [hp.mem_rounds ha]
    constructor
    · rintro ⟨k, ⟨i, hi, hleast⟩, hrest⟩
      exact ⟨i, hi, (takes_times (ha i hi)).2 ⟨k, hleast, hrest⟩⟩
    · rintro ⟨i, hi, htakes⟩
      obtain ⟨k, hleast, hrest⟩ := (takes_times (ha i hi)).1 htakes
      exact ⟨k, ⟨i, hi, hleast⟩, hrest⟩

/-- A pattern selects a text if somewhere in it there is a way to match. -/
theorem selects_iff {p : Pattern} {s : String} : p.selects s = true ↔
    ∃ front back, s.toList = front ++ back ∧ p.ways front.getLast? back ≠ [] := by
  have hmem := (follows_behind p s.toList).mem_iff (List.range (s.toList.length + 1)) fun i hi =>
    Nat.le_of_lt_succ (List.mem_range.1 hi)
  have hselects : p.selects s = true ↔ ∃ j, j ∈ behind s.toList.toArray p
      (List.range (s.toList.length + 1)) := by
    simp [selects, List.eq_nil_iff_forall_not_mem]
  rw [hselects]
  simp only [hmem]
  constructor
  · rintro ⟨j, i, hi, t, ht, rfl⟩
    exact ⟨s.toList.take i, s.toList.drop i, (List.take_append_drop i s.toList).symm,
      List.ne_nil_of_mem ht⟩
  · rintro ⟨front, back, hs, hways⟩
    obtain ⟨t, ht⟩ := List.exists_mem_of_ne_nil _ hways
    refine ⟨_, front.length, ?_, t, ?_, rfl⟩
    · rw [List.mem_range, hs, List.length_append]
      omega
    · simpa [hs] using ht

end

theorem splits_ne_nil_iff {parts : List Pattern} {before : Option Char} {s : List Char} :
    splits parts before s ≠ [] ↔ (inRow parts).ways before s ≠ [] := by
  rw [ways_inRow, ne_eq, ne_eq, List.map_eq_nil_iff]

theorem leftmost?_ne_none_iff {parts : List Pattern} {before : Option Char} {s : List Char} :
    leftmost? parts before s ≠ none ↔ ∃ front back, s = front ++ back ∧
      (inRow parts).ways (front.getLast?.or before) back ≠ [] := by
  induction s generalizing before with
  | nil =>
    simp [leftmost?, ← splits_ne_nil_iff]
  | cons c s ih =>
    have hhere : leftmost? parts before (c :: s) ≠ none ↔
        splits parts before (c :: s) ≠ [] ∨ leftmost? parts (some c) s ≠ none := by
      simp [leftmost?, Option.or_eq_none_iff, or_iff_not_imp_left]
    rw [hhere, ih, splits_ne_nil_iff]
    constructor
    · rintro (hfirst | ⟨front, back, rfl, hlater⟩)
      · exact ⟨[], c :: s, rfl, hfirst⟩
      · exact ⟨c :: front, back, rfl, by simpa [List.getLast?_cons] using hlater⟩
    · rintro ⟨front, back, hs, hways⟩
      cases front with
      | nil => exact .inl (hs ▸ hways)
      | cons x front =>
        obtain ⟨rfl, rfl⟩ := List.cons.inj hs
        exact .inr ⟨front, back, rfl, by simpa [List.getLast?_cons] using hways⟩

theorem selects_inRow_iff {parts : List Pattern} {s : String} :
    (inRow parts).selects s = true ↔ leftmost? parts none s.toList ≠ none := by
  rw [selects_iff, leftmost?_ne_none_iff]
  simp only [Option.or_none]

end Rollout.Pattern
