import Schematron.Console.Markup

/-! Tables on a console. Titles and cells are texts with markup; a cell may have several lines. -/

namespace Schematron.Console

structure Table where
  title : Option String
  columns : List String
  rows : List (List String)

namespace Table

def cellLines (cell : String) : Except MarkupFault (List String) :=
  (Markup.plainText cell).map (Text.splitString '\n')

def pad (width : Nat) (text : String) : String :=
  text ++ String.ofList (List.replicate (width - text.length) ' ')

def width (cell : List String) : Nat := (cell.map String.length).foldl max 0

def drawLine (widths : List Nat) (texts : List String) : String :=
  "│ " ++ " │ ".intercalate ((widths.zip texts).map fun (size, text) => pad size text) ++ " │"

def drawRow (widths : List Nat) (cells : List (List String)) : List String :=
  -- A row is as high as its highest cell.
  let height := (cells.map List.length).foldl max 1
  (List.range height).map fun index =>
    drawLine widths (cells.map fun cell => cell.getD index "")

def rule (widths : List Nat) (left middle right : String) : String :=
  let bars := widths.map fun size => String.ofList (List.replicate (size + 2) '─')
  left ++ middle.intercalate bars ++ right

def columnWidth (grid : List (List (List String))) (column : Nat) : Nat :=
  (grid.map fun row => width (row.getD column [])).foldl max 0

def lines (table : Table) : Except MarkupFault (List String) := do
  let title ← match table.title with
    | some title => cellLines title
    | none => pure []
  let header ← table.columns.mapM cellLines
  let rows ← table.rows.mapM fun row => row.mapM cellLines
  let widths := (List.range table.columns.length).map (columnWidth (header :: rows))
  return title ++ [rule widths "┌" "┬" "┐"] ++ drawRow widths header ++
    [rule widths "├" "┼" "┤"] ++ rows.flatMap (drawRow widths) ++ [rule widths "└" "┴" "┘"]

end Table

end Schematron.Console
