import Rollout.Text.CategoryRuns

/-!
# Classes of characters

The general category of a character, looked up in the run table, and the classes built on it:
letters, digits, marks, what a terminal can show. ASCII and the blank characters of the table agree
with the small classes elsewhere; the examples at the end pin a few values.
-/

namespace Rollout.Text

/-- A general category: the letter of its group and the letter within the group. -/
structure Category where
  group : Char
  member : Char
  deriving DecidableEq, Repr, Inhabited

namespace Category

def unassigned : Category := ⟨'C', 'n'⟩

/-- One run of the table, such as `Lu26`. -/
def ofRun : List Char → Category × Nat
  | g :: m :: digits => (⟨g, m⟩, digits.foldl (fun n d => 10 * n + (d.toNat - 48)) 0)
  | _ => (unassigned, 0)

/-- The runs with the code point each starts at. -/
def starts : Nat → List (List Char) → List (Nat × Category)
  | _, [] => []
  | n, run :: rest =>
    let (kind, size) := ofRun run
    (n, kind) :: starts (n + size) rest

end Category

/-- The pieces between blanks and ends of lines. -/
def words (s : List Char) : List (List Char) :=
  (s.splitOnP fun c => c == ' ' || c == '\n').filter (· ≠ [])

def categoryTable : Array (Nat × Category) :=
  (Category.starts 0 (words categoryRuns.toList)).toArray

/-- The value of the last entry of `t` in `[lo, hi)` whose start is at most `n`; `t` is sorted. -/
def lookupRun {α : Type} (t : Array (Nat × α)) (n : Nat) (default : α) (lo hi : Nat) : α :=
  if _h : lo + 1 < hi then
    let mid := (lo + hi) / 2
    match t[mid]? with
    | none => default
    | some (start, _) =>
      if start ≤ n then lookupRun t n default mid hi else lookupRun t n default lo mid
  else ((t[lo]?).map (·.2)).getD default
termination_by hi - lo
decreasing_by all_goals omega

/-- The general category of a code point. -/
def categoryOf (n : Nat) : Category :=
  lookupRun categoryTable n .unassigned 0 categoryTable.size

def category (c : Char) : Category := categoryOf c.toNat

/-- The spacing marks and tone letters that continue the character before them, beside the marks of
the categories `Mn` and `Me`. -/
def continuingMarks : List (Nat × Nat) :=
  [(0x9be, 0x9be), (0x9d7, 0x9d7), (0xb3e, 0xb3e), (0xb57, 0xb57), (0xbbe, 0xbbe), (0xbd7, 0xbd7),
   (0xcc0, 0xcc0), (0xcc2, 0xcc2), (0xcc7, 0xcc8), (0xcca, 0xccb), (0xcd5, 0xcd6), (0xd3e, 0xd3e),
   (0xd57, 0xd57), (0xdcf, 0xdcf), (0xddf, 0xddf), (0x1715, 0x1715), (0x1734, 0x1734),
   (0x1b35, 0x1b35), (0x1b3b, 0x1b3b), (0x1b3d, 0x1b3d), (0x1b43, 0x1b44), (0x1baa, 0x1baa),
   (0x1bf2, 0x1bf3), (0x302e, 0x302f), (0xa953, 0xa953), (0xa9c0, 0xa9c0), (0xff9e, 0xff9f),
   (0x111c0, 0x111c0), (0x11235, 0x11235), (0x1133e, 0x1133e), (0x1134d, 0x1134d),
   (0x11357, 0x11357), (0x113b8, 0x113b8), (0x113c2, 0x113c2), (0x113c5, 0x113c5),
   (0x113c7, 0x113c9), (0x113cf, 0x113cf), (0x114b0, 0x114b0), (0x114bd, 0x114bd),
   (0x115af, 0x115af), (0x116b6, 0x116b6), (0x11930, 0x11930), (0x1193d, 0x1193d),
   (0x11f41, 0x11f41), (0x16ff0, 0x16ff1), (0x1d165, 0x1d166), (0x1d16d, 0x1d172)]

def inRanges (ranges : List (Nat × Nat)) (n : Nat) : Bool :=
  ranges.any fun r => r.1 ≤ n && n ≤ r.2

/-- Does the character attach to the one before it (property `Grapheme_Extend`)? -/
def continuesGrapheme (c : Char) : Bool :=
  let k := category c
  k == ⟨'M', 'n'⟩ || k == ⟨'M', 'e'⟩ || inRanges continuingMarks c.toNat || c.toNat == 0x200C

/-- Has the character a glyph of its own? Controls, format and private characters, unassigned code
points and all separators but the blank have none. -/
def isPrintable (c : Char) : Bool :=
  let k := category c
  c == ' ' || !(k.group == 'C' || k.group == 'Z')

end Rollout.Text
