import BackupAdmin.Text.Blank
import BackupAdmin.Text.Width

/-! Tables of texts in a frame of ASCII characters. -/
namespace BackupAdmin

/-- A row of headings and rows of cells. A cell may have several lines. -/
structure Table where
  header : List String
  rows : List (List String)

namespace Table
open Text

def cellLines (cell : String) : List String := (pieces '\n' cell.toList).map String.ofList

def cellWidth (cell : String) : Nat := ((cellLines cell).map Text.width).foldl max 0

/-- The widths of the columns; none is narrower than one character. -/
def widths (t : Table) : List Nat :=
  let columns := t.header.map fun h => max 1 (cellWidth h)
  t.rows.foldl (fun ws row => List.zipWith (fun w cell => max w (cellWidth cell)) ws row) columns

/-- A line of the frame: `fill` under each column, `joint` between columns, `edge` at both ends. -/
def rule (edge joint fill : Char) (ws : List Nat) : String :=
  let bars := ws.map fun w => String.ofList (List.replicate (w + 2) fill)
  joinWith "" [String.singleton edge, joinWith (String.singleton joint) bars, String.singleton edge]

/-- A line of a row: the text of each column, filled up with blanks. -/
def line (ws : List Nat) (texts : List String) : String :=
  String.join ((ws.zip texts).map fun (w, s) =>
    "| " ++ s ++ String.ofList (List.replicate (w - Text.width s) ' ') ++ " ") ++ "|"

/-- The lines of a row: as many as its tallest cell has. -/
def rowLines (ws : List Nat) (row : List String) : List String :=
  let cells := row.map cellLines
  let height := (cells.map List.length).foldl max 0
  (List.range height).map fun i => line ws (cells.map fun ls => ls[i]?.getD "")

def text (t : Table) : String :=
  let ws := t.widths
  let frame := rule '+' '+' '-' ws
  let separator := rule '|' '+' '-' ws
  let body := ((t.rows.map (rowLines ws)).intersperse [separator]).flatten
  joinWith "\n"
    (frame :: rowLines ws t.header ++ rule '+' '=' '=' ws :: body ++ [frame])

example : text ⟨["a"], [["1"], ["b\nc"]]⟩ =
    "+---+\n| a |\n+===+\n| 1 |\n|---|\n| b |\n| c |\n+---+" := by decide +kernel

end Table
end BackupAdmin
