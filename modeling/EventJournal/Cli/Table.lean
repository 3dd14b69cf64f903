/-!
# Tables

A table of text in a frame with round corners. Every column is as wide as its widest cell, with a blank
on either side; the first column is aligned to the right and the others to the left. A line stands below
the heading.

Main statement: `length_padded`, a cell fills its column.
-/

namespace EventJournal.Cli

/-- Blanks. -/
def blanks (count : Nat) : String := String.ofList (List.replicate count ' ')

/-- A text in a column of a width, at its right or its left side. -/
def padded (right : Bool) (width : Nat) (text : String) : String :=
  let space := blanks (width - text.length)
  if right then space ++ text else text ++ space

theorem length_padded {right : Bool} {width : Nat} {text : String} (h : text.length ≤ width) :
    (padded right width text).length = width := by
  unfold padded blanks
  split <;> simp <;> omega

/-- The widths of columns that hold each row. -/
def columnWidths : List (List String) → List Nat
  | [] => []
  | [row] => row.map String.length
  | row :: rest =>
    (row.zip (columnWidths rest)).map fun (cell, width) => max cell.length width

/-- A line of cells. -/
def cellLine (widths : List Nat) (row : List String) : String :=
  let cells := (widths.zip row).mapIdx fun index (width, cell) =>
    " " ++ padded (index = 0) width cell ++ " "
  "│" ++ "│".intercalate cells ++ "│"

/-- A line of the frame, from its left end, its crossings and its right end. -/
def ruleLine (left cross right : String) (widths : List Nat) : String :=
  let bars := widths.map fun width => String.ofList (List.replicate (width + 2) '─')
  left ++ cross.intercalate bars ++ right

/-- The lines of a table: a heading and rows below it. -/
def tableLines (heading : List String) (rows : List (List String)) : List String :=
  let widths := columnWidths (heading :: rows)
  [ruleLine "╭" "┬" "╮" widths, cellLine widths heading, ruleLine "├" "┼" "┤" widths] ++
    rows.map (cellLine widths) ++ [ruleLine "╰" "┴" "╯" widths]

end EventJournal.Cli
