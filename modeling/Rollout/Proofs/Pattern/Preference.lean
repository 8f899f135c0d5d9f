import Mathlib.Data.List.Infix
import Mathlib.Data.List.TakeWhile
import Rollout.Pattern.Matching

/-!
# Which match is preferred

A pattern may match a text in several ways. They are tried in order: of two alternatives the first comes
first, and a repetition takes as many rounds as it can before it takes fewer. `Pattern.ways` lists what a
pattern can take from a place on in that order, and `Pattern.leftmost?` is the first way to match the parts
of a pattern one after the other, at the first place where there is one. What a part has taken in it is what
a group around that part holds.
-/

namespace Rollout.Pattern

/-- Texts that can be taken from a place on, the preferred ones first: `before` is the character in front of
the place, `s` the text behind it. -/
abbrev Ways := (before : Option Char) → (s : List Char) → List (List Char)

namespace Ways

def andThen (m n : Ways) : Ways := fun before s =>
  (m before s).flatMap fun t => (n (t.getLast?.or before) (s.drop t.length)).map (t ++ ·)

def rounds (m : Ways) : (n : Nat) → Ways
  | 0 => fun _ _ => [[]]
  | n + 1 => m.andThen (rounds m n)

/-- At most `n` rounds, and as many as there can be. A round that takes nothing is the last. -/
def greedy (m : Ways) : (n : Nat) → Ways
  | 0 => fun _ _ => [[]]
  | n + 1 => fun before s =>
    ((m before s).flatMap fun t =>
      if t.isEmpty then [[]]
      else (greedy m n (t.getLast?.or before) (s.drop t.length)).map (t ++ ·)) ++ [[]]

end Ways

/-- What the pattern can take. A text has room for no more rounds than it has characters. -/
def ways : Pattern → Ways
  | empty => fun _ _ => [[]]
  | set p => fun _ s =>
    match s with
    | c :: _ => if p.contains c then [[c]] else []
    | [] => []
  | look l => fun before s => if l.holds before s.head? then [[]] else []
  | seq p q => p.ways.andThen q.ways
  | alt p q => fun before s => p.ways before s ++ q.ways before s
  | times p least most => fun before s =>
    let more := match most with
      | none => s.length
      | some most => most - least
    (p.ways.rounds least).andThen (p.ways.greedy more) before s

def inRow : List Pattern → Pattern
  | [] => .empty
  | p :: rest => rest.foldl .seq p

/-- What the parts can take one after the other, the preferred way first. -/
def splits : List Pattern → Option Char → List Char → List (List (List Char))
  | [], _, _ => [[]]
  | p :: rest, before, s => (p.ways before s).flatMap fun t =>
      (splits rest (t.getLast?.or before) (s.drop t.length)).map (t :: ·)

/-- What they take in the preferred way at the first place where all of them match. -/
def leftmost? (parts : List Pattern) (before : Option Char) : List Char → Option (List (List Char))
  | [] => (splits parts before []).head?
  | c :: rest => (splits parts before (c :: rest)).head?.or (leftmost? parts (some c) rest)

variable {p q : Pattern} {rest parts : List Pattern} {before : Option Char} {s : List Char}

/-! ## Parts and the whole -/

/-- Two parts that are made one take the same together. -/
theorem map_flatten_splits_seq : (splits (.seq p q :: rest) before s).map List.flatten =
    (splits (p :: q :: rest) before s).map List.flatten := by
  simp only [splits, ways, Ways.andThen, List.flatMap_assoc, List.map_flatMap, List.flatMap_map]
  refine List.flatMap_congr fun t _ => List.flatMap_congr fun u _ => ?_
  simp [Option.or_assoc, List.drop_drop, Function.comp_def]

/-- What the parts take is what the whole pattern takes, in the same order. -/
theorem ways_inRow : (inRow parts).ways before s = (splits parts before s).map List.flatten := by
  have hone (p : Pattern) : p.ways before s = (splits [p] before s).map List.flatten := by
    simp [splits, List.map_flatMap, List.flatMap_singleton']
  cases parts with
  | nil => simp [inRow, splits, ways]
  | cons p rest =>
    change (rest.foldl seq p).ways before s = _
    rw [hone]
    induction rest generalizing p with
    | nil => rfl
    | cons q rest ih => rw [List.foldl_cons, ih, map_flatten_splits_seq]

theorem head?_splits_cons : (splits (p :: rest) before s).head? = (p.ways before s).findSome? fun t =>
    (splits rest (t.getLast?.or before) (s.drop t.length)).head?.map (t :: ·) := by
  rw [splits, List.head?_flatMap]
  simp only [List.head?_map]

/-! ## Repetitions of a set -/

section

variable {c : CharSet} {x : Char}

@[simp] theorem ways_set_nil : (set c).ways before [] = [] := rfl

@[simp] theorem ways_set_cons :
    (set c).ways before (x :: s) = if c.contains x then [[x]] else [] := rfl

/-- As much of a run of the set as there is room for, the longest first. -/
theorem greedy_set {n : Nat} (hn : s.length ≤ n) :
    (set c).ways.greedy n before s = (s.takeWhile c.contains).inits.reverse := by
  induction s generalizing n before with
  | nil => cases n <;> simp [Ways.greedy]
  | cons x s ih =>
    cases n with
    | zero => simp at hn
    | succ n =>
      by_cases hx : c.contains x = true
      · have hrest : (set c).ways.greedy n (some x) s = (s.takeWhile c.contains).inits.reverse :=
          ih (by simpa using hn)
        simp [Ways.greedy, hx, hrest]
      · simp [Ways.greedy, hx]

theorem ways_star : (times (set c) 0 none).ways before s = (s.takeWhile c.contains).inits.reverse := by
  have hgreedy : (set c).ways.greedy s.length before s = (s.takeWhile c.contains).inits.reverse :=
    greedy_set (Nat.le_refl _)
  rw [ways]
  simp [Ways.andThen, Ways.rounds, hgreedy]

theorem ways_plus_cons (hx : c.contains x = true) :
    (times (set c) 1 none).ways before (x :: s) =
      (s.takeWhile c.contains).inits.reverse.map (x :: ·) := by
  have hgreedy : (set c).ways.greedy (s.length + 1) (some x) s =
      (s.takeWhile c.contains).inits.reverse := greedy_set (Nat.le_succ _)
  rw [ways]
  simp [Ways.andThen, Ways.rounds, hx, hgreedy]

theorem ways_plus_of_not (h : ∀ x, s.head? = some x → c.contains x = false) :
    (times (set c) 1 none).ways before s = [] := by
  rw [ways]
  cases s with
  | nil => simp [Ways.andThen, Ways.rounds]
  | cons x s => simp [Ways.andThen, Ways.rounds, h x rfl]

end

theorem findSome?_inits_reverse {α : Type} {f : List Char → Option α} {t : List Char}
    (hf : ∀ u, u <+: t → u ≠ t → f u = none) : t.inits.reverse.findSome? f = f t := by
  induction t generalizing f with
  | nil => simp
  | cons x t ih =>
    have hlonger : t.inits.reverse.findSome? (f ∘ (x :: ·)) = f (x :: t) := by
      refine ih fun u hu hne => ?_
      exact hf (x :: u) (List.cons_prefix_cons.2 ⟨rfl, hu⟩) (by simpa using hne)
    have hempty : f [] = none := hf [] List.nil_prefix (by simp)
    simp [← List.map_reverse, List.findSome?_append, List.findSome?_map, hlonger, hempty]

/-- A run that is followed by what is not in the set cannot give anything back: if `f` fails wherever a
character of the set follows, it is tried on the whole run. -/
theorem findSome?_ways_plus {α : Type} {c : CharSet} {f : List Char → Option α}
    (hf : ∀ t x, t ++ [x] <+: s → c.contains x = true → f t = none) :
    ((times (set c) 1 none).ways before s).findSome? f =
      if s.takeWhile c.contains = [] then none else f (s.takeWhile c.contains) := by
  have hshort {t u : List Char} (ht : t ++ u <+: s) (hu : ∀ x ∈ u, c.contains x = true) (hne : u ≠ []) :
      f t = none := by
    obtain ⟨x, u, rfl⟩ := List.exists_cons_of_ne_nil hne
    refine hf t x (List.IsPrefix.trans ?_ ht) (hu x List.mem_cons_self)
    exact ⟨u, by simp⟩
  cases s with
  | nil => rw [ways_plus_of_not (by simp)]; rfl
  | cons x s =>
    by_cases hx : c.contains x = true
    · have hrun : s.takeWhile c.contains <+: s := List.takeWhile_prefix _
      rw [ways_plus_cons hx, List.findSome?_map, findSome?_inits_reverse]
      · simp [hx]
      · rintro t ⟨u, hu⟩ hne
        refine hshort (t := x :: t) (u := u) ?_ (fun y hy => ?_) (fun h => hne (by simpa [h] using hu))
        · rw [List.cons_append, hu]
          exact List.cons_prefix_cons.2 ⟨rfl, hrun⟩
        · exact List.mem_takeWhile_imp (hu ▸ List.mem_append_right t hy)
    · rw [ways_plus_of_not (by simpa using hx)]
      simp [hx]

theorem ways_optional_cons {c : CharSet} {x : Char} :
    (times (set c) 0 (some 1)).ways before (x :: s) =
      if c.contains x then [[x], []] else [[]] := by
  rw [ways]
  by_cases hx : c.contains x = true <;> simp [Ways.andThen, Ways.rounds, Ways.greedy, hx]

theorem ways_optional_nil {c : CharSet} : (times (set c) 0 (some 1)).ways before [] = [[]] := by
  rw [ways]
  simp [Ways.andThen, Ways.rounds, Ways.greedy]

end Rollout.Pattern
