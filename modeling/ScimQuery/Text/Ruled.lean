import ScimQuery.Text.Pieces

/-! # Ruled tables

A table with a title, a head and rows, drawn with heavy lines around the head and light ones
around the rows.  A column is as wide as its widest cell, with a blank on either side. -/

namespace ScimQuery
namespace Text

/-- A table of texts. -/
structure RuledTable where
  title : String
  head : List String
  rows : List (List String)
  deriving Repr

namespace RuledTable

/-- A number of equal characters. -/
def fill (n : Nat) (c : Char) : String := String.ofList (List.replicate n c)

/-- The widths of the columns. -/
def widths (t : RuledTable) : List Nat :=
  t.rows.foldl (fun ws row => List.zipWith max ws (row.map String.length))
    (t.head.map String.length)

/-- A line between rows: its ends, what crosses it between columns, and what it is drawn with. -/
def rule (first cross last : String) (stroke : Char) (widths : List Nat) : String :=
  first ++ join cross (widths.map fun w => fill (w + 2) stroke) ++ last

/-- The line of a row, with a bar around each cell. -/
def rowLine (bar : String) (widths : List Nat) (cells : List String) : String :=
  let padded := List.zipWith (fun w cell => " " ++ cell ++ fill (w - cell.length) ' ' ++ " ")
    widths cells
  bar ++ join bar padded ++ bar

/-- A text in the middle of a line; of an odd number of blanks, one more stands after it. -/
def centred (width : Nat) (s : String) : String :=
  let blanks := width - s.length
  fill (blanks / 2) ' ' ++ s ++ fill (blanks - blanks / 2) ' '

/-- The lines of a table. -/
def lines (t : RuledTable) : List String :=
  let ws := t.widths
  [centred (rule "┏" "┳" "┓" '━' ws).length t.title,
    rule "┏" "┳" "┓" '━' ws,
    rowLine "┃" ws t.head,
    rule "┡" "╇" "┩" '━' ws]
  ++ t.rows.map (rowLine "│" ws)
  ++ [rule "└" "┴" "┘" '─' ws]

end RuledTable
end Text
end ScimQuery
