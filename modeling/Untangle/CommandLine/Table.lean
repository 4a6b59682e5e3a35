import Untangle.Text.Blank
import Untangle.Text.Split
import Untangle.Text.Width

/-!
# Tables without rules

A column is as wide as its widest line, and two spaces stand between columns.
-/
namespace Untangle

inductive Alignment where
  | left
  | right

structure Column where
  header : String
  alignment : Alignment := .left

structure Table where
  columns : List Column
  rows : List (List String)

namespace Table

/-- A line of a cell, filled up with spaces. -/
def fill (alignment : Alignment) (width : Nat) (line : String) : String :=
  let spaces := String.ofList (List.replicate (width - Text.width line) ' ')
  match alignment with
  | .left => line ++ spaces
  | .right => spaces ++ line

def columnWidth (cells : List (List String)) : Nat :=
  (cells.flatten.map Text.width).foldl max 0

/-- The lines of a row, which are as many as those of its longest cell. -/
def rowLines (layout : List (Alignment × Nat)) (cells : List (List String)) : List String :=
  let height := (cells.map List.length).foldl max 0
  (List.range height).map fun n =>
    let parts := List.zipWith (fun (alignment, width) cell => fill alignment width (cell.getD n ""))
      layout cells
    String.ofList (Text.trimEnd ("  ".intercalate parts).toList)

/-- The header and the rows, without spaces at the ends of lines. -/
def lines (t : Table) : List String :=
  let rows := (t.columns.map Column.header :: t.rows).map fun row => row.map (Text.splitText '\n')
  let layout := t.columns.zipIdx.map fun (column, n) =>
    (column.alignment, columnWidth (rows.map fun row => row.getD n []))
  rows.flatMap (rowLines layout)

def text (t : Table) (indent : String) : String :=
  String.join (t.lines.map fun line => indent ++ line ++ "\n")

end Table
end Untangle
