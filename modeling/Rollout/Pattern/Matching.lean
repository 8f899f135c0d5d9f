import Rollout.Pattern.CharSet

/-!
# Patterns

Patterns for selecting texts, and what they match. The meaning of a pattern is where it can end: from a
set of places in a text it leads to the set of places behind its matches. A text is selected if the
pattern matches somewhere in it.
-/

namespace Rollout

/-- A condition on a place between characters. -/
inductive Pattern.Look where
  | textStart
  | textEnd
  | lineStart
  | lineEnd
  /-- Like `lineStart` and `lineEnd`, but a carriage return ends a line as well. -/
  | anyLineStart
  | anyLineEnd
  | wordBoundary
  | noWordBoundary
  | wordStart
  | wordEnd
  | wordStartHalf
  | wordEndHalf
  deriving DecidableEq, Repr

inductive Pattern where
  | empty
  | set (s : Pattern.CharSet)
  | look (l : Pattern.Look)
  | seq (p q : Pattern)
  | alt (p q : Pattern)
  /-- At least `least` times, and at most `most` times if that is set. -/
  | times (p : Pattern) (least : Nat) (most : Option Nat)
  deriving Repr

namespace Pattern

/-- Places in a text, in ascending order. -/
abbrev Places := List Nat

namespace Places

def merge : Places → Places → Places
  | [], b => b
  | a, [] => a
  | x :: a, y :: b =>
    if x < y then x :: merge a (y :: b)
    else if y < x then y :: merge (x :: a) b
    else x :: merge a b
termination_by a b => a.length + b.length

end Places

def Look.holds (l : Look) (before after : Option Char) : Bool :=
  let word (c : Option Char) := c.any isWordChar
  match l with
  | textStart => before.isNone
  | textEnd => after.isNone
  | lineStart => before.isNone || before == some '\n'
  | lineEnd => after.isNone || after == some '\n'
  | anyLineStart =>
    before.isNone || before == some '\n' || (before == some '\r' && after != some '\n')
  | anyLineEnd =>
    after.isNone || after == some '\r' || (after == some '\n' && before != some '\r')
  | wordBoundary => word before != word after
  | noWordBoundary => word before == word after
  | wordStart => !word before && word after
  | wordEnd => word before && !word after
  | wordStartHalf => !word before
  | wordEndHalf => !word after

/-- The condition at place `i` of a text. -/
def Look.holdsAt (l : Look) (text : Array Char) (i : Nat) : Bool :=
  l.holds (if i = 0 then none else text[i - 1]?) text[i]?

/-- What `step` leads to from `a` in `n` rounds. -/
def rounds (step : Places → Places) : (n : Nat) → Places → Places
  | 0, a => a
  | n + 1, a => rounds step n (step a)

/-- What `step` leads to from `a` in at most `n` rounds. -/
def upTo (step : Places → Places) : (n : Nat) → Places → Places
  | 0, a => a
  | n + 1, a => a.merge (upTo step n (step a))

/-- The places behind the matches that start at one of the given places. A text of `n` characters has
room for no more than `n` rounds that take a character, so of rounds that take none one is enough. -/
def behind (text : Array Char) : Pattern → Places → Places
  | empty, a => a
  | set s, a => a.filterMap fun i =>
      match text[i]? with
      | some c => if s.contains c then some (i + 1) else none
      | none => none
  | look l, a => a.filter (l.holdsAt text)
  | seq p q, a => behind text q (behind text p a)
  | alt p q, a => (behind text p a).merge (behind text q a)
  | times p least most, a =>
    let enough := text.size + 1
    let a := rounds (behind text p) (min least enough) a
    match most with
    | none => upTo (behind text p) enough a
    | some most => upTo (behind text p) (min (most - least) enough) a

/-- About how many steps the pattern has when its counts are written out. -/
def weight : Pattern → Nat
  | empty | look _ => 1
  | set s => s.weight
  | seq p q => p.weight + q.weight
  | alt p q => p.weight + q.weight + 1
  | times p least most => p.weight * max 1 (most.getD least)

/-- Does the pattern match anywhere in the text? -/
def selects (p : Pattern) (s : String) : Bool :=
  let text := s.toList.toArray
  !(behind text p (List.range (text.size + 1))).isEmpty

end Pattern
end Rollout
