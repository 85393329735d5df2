import ScimQuery.Text.Columns
import ScimQuery.Text.Pieces

/-! # Texts on a screen

A text as it is printed on a terminal: without the controls that ring, move back or feed, and with
blanks up to the next tab stop in the place of each tab.  Tab stops are eight columns apart. -/

namespace ScimQuery
namespace Text

/-- A control that is not printed: a bell, a backspace, a vertical tab, a form feed or a carriage
return. -/
def isDroppedControl (c : Char) : Bool :=
  c == '\x07' || c == '\x08' || c == '\x0b' || c == '\x0c' || c == '\r'

/-- The first tab stop at or after a column. -/
def tabStop (column : Nat) : Nat := (column + 7) / 8 * 8

/-- The pieces of a line between its tabs, the first of them in a given column, with blanks for the
tabs.  A tab is at least one blank, which is measured together with the piece before it. -/
def joinTabbed (column : Nat) : List (List Char) → List Char
  | [] => []
  | [piece] => piece
  | piece :: rest =>
    let reached := column + totalColumns (piece ++ [' '])
    piece ++ List.replicate (tabStop reached - reached + 1) ' ' ++ joinTabbed (tabStop reached) rest

/-- A line with blanks for its tabs. -/
def expandTabs (line : List Char) : List Char := joinTabbed 0 (splitOn '\t' line)

/-- A text as it is printed. -/
def onScreen (s : String) : String :=
  let lines := splitOn '\n' (s.toList.filter (! isDroppedControl ·))
  join "\n" (lines.map fun line => String.ofList (expandTabs line))

end Text
end ScimQuery
