import Rollout.Text.Width

/-!
# Tables

Rows of texts between lines of hyphens. Every column is as wide as its widest text, every row as high as
its highest, and each text has a blank on either side.
-/

namespace Rollout.Text

structure Table where
  header : List String
  rows : List (List String)

namespace Table

def cellLines (cell : String) : List String := cell.splitOn "\n"

/-- The widest line of each column; `texts` are rows of one length. -/
def columnWidths (texts : List (List String)) : List Nat :=
  texts.foldl
    (fun widths row =>
      row.zipIdx.map fun (cell, i) =>
        max ((widths[i]?).getD 0) (((cellLines cell).map width).max?.getD 0))
    []

def border (widths : List Nat) : String :=
  "+" ++ String.join (widths.map fun w => "".pushn '-' (w + 2) ++ "+")

def line (widths : List Nat) (cells : List String) : String :=
  "|" ++ String.join ((widths.zip cells).map fun (w, cell) =>
    " " ++ cell.pushn ' ' (w - width cell) ++ " |")

def rowLines (widths : List Nat) (row : List String) : List String :=
  let cells := row.map cellLines
  let height := (cells.map List.length).max?.getD 0
  (List.range height).map fun i => line widths (cells.map fun ls => (ls[i]?).getD "")

/-- The table as lines of text; the last ends without a line break. -/
def text (t : Table) : String :=
  let all := t.header :: t.rows
  let widths := columnWidths all
  "\n".intercalate
    (border widths :: all.flatMap fun row => rowLines widths row ++ [border widths])

end Table
end Rollout.Text
