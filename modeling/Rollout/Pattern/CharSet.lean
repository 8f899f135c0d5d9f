import Rollout.Text.Blank
import Rollout.Text.Category
import Rollout.Text.Folding

/-!
# Sets of characters

What one place of a pattern may match: ranges, properties of Unicode, and sets built from them.
-/

namespace Rollout.Pattern

inductive Property where
  | any
  | assigned
  | category (group : Char) (member : Option Char)
  /-- Cased letters of category `Lu`, `Ll` or `Lt`. -/
  | casedLetter
  | digit
  | space
  | word
  /-- The code points in some ranges. -/
  | within (ranges : List (Nat × Nat))
  deriving DecidableEq, Repr

inductive CharSet where
  | empty
  | range (first last : Char)
  | property (p : Property)
  | union (s t : CharSet)
  | inter (s t : CharSet)
  | minus (s t : CharSet)
  /-- The characters in one of the sets but not in both. -/
  | differ (s t : CharSet)
  | negated (s : CharSet)
  /-- The set with all other cases of its characters. -/
  | folded (s : CharSet)
  deriving Repr

/-- The circled and squared letters, which are letters though their category says symbol. -/
def symbolLetters : List (Nat × Nat) :=
  [(0x24b6, 0x24e9), (0x1f130, 0x1f149), (0x1f150, 0x1f169), (0x1f170, 0x1f189)]

/-- The characters of words: letters, marks, decimal digits, letter numbers, connectors, and the two
joiners. -/
def isWordChar (c : Char) : Bool :=
  let k := Text.category c
  k.group == 'L' || k.group == 'M' || k == ⟨'N', 'd'⟩ || k == ⟨'N', 'l'⟩ || k == ⟨'P', 'c'⟩ ||
    c == '\u200c' || c == '\u200d' || Text.inRanges symbolLetters c.toNat

def Property.holds (p : Property) (c : Char) : Bool :=
  match p with
  | any => true
  | assigned => Text.category c != .unassigned
  | category group none => (Text.category c).group == group
  | category group (some member) => Text.category c == ⟨group, member⟩
  | casedLetter =>
    let k := Text.category c
    k.group == 'L' && (k.member == 'u' || k.member == 'l' || k.member == 't')
  | digit => Text.category c == ⟨'N', 'd'⟩
  | space => Text.isBlank c
  | word => isWordChar c
  | within ranges => Text.inRanges ranges c.toNat

namespace CharSet

def contains : CharSet → Char → Bool
  | empty, _ => false
  | range first last, c => first ≤ c && c ≤ last
  | property p, c => p.holds c
  | union s t, c => s.contains c || t.contains c
  | inter s t, c => s.contains c && t.contains c
  | minus s t, c => s.contains c && !t.contains c
  | differ s t, c => s.contains c != t.contains c
  | negated s, c => !s.contains c
  | folded s, c => (Text.caseClass c).any s.contains

/-- About how many steps it takes to read a character of the set byte by byte. -/
def weight : CharSet → Nat
  | empty => 1
  | range _ last => last.utf8Size
  | property _ => 300
  | union s t | inter s t | minus s t | differ s t => s.weight + t.weight
  | negated s => s.weight + 10
  | folded s => 2 * s.weight

def single (c : Char) : CharSet := range c c

def ofRanges (ranges : List (Char × Char)) : CharSet :=
  ranges.foldr (fun r s => union (range r.1 r.2) s) empty

end CharSet
end Rollout.Pattern
