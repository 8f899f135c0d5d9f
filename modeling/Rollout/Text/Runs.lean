import Rollout.Text.Category
import Rollout.Text.PropertyRuns
import Rollout.Text.ScriptRuns

/-!
# Tables of runs

Looks up what a table of names and runs has under a name.
-/

namespace Rollout.Text

/-- The ranges of runs such as `13+4`, from the code point `n` on. -/
def rangesFrom (n : Nat) : List (List Char) → List (Nat × Nat)
  | [] => []
  | run :: rest =>
    let number (cs : List Char) : Nat := cs.foldl (fun v d => 10 * v + (d.toNat - 48)) 0
    let first := n + number (run.takeWhile (· != '+'))
    let size := number (run.dropWhile (· != '+')).tail
    (first, first + size - 1) :: rangesFrom (first + size) rest

/-- The ranges a table has under a name. -/
def rangesOf? (table : String) (name : List Char) : Option (List (Nat × Nat)) :=
  (table.toList.splitOnP (· == ';')).findSome? fun entry =>
    let names := (words entry).takeWhile fun w => w.head?.any Char.isAlpha
    if names.contains name then some (rangesFrom 0 ((words entry).drop names.length)) else none

end Rollout.Text
