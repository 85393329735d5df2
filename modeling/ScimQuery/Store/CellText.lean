import ScimQuery.Json
import ScimQuery.Number.Layout
import ScimQuery.Text.Pieces
import ScimQuery.Text.Quoted

/-! # Texts of cells

The text that a column holds for a value.  A text is held as it is; any other value is written
out, with texts inside arrays and objects in quotes. -/

namespace ScimQuery
namespace CellText

/-- Doubles in cells. -/
def numberLayout : NumberLayout where
  leastPlaces := -4
  mostPlaces := 16
  exponentDigits := 2
  infinity := "inf"
  notNumber := "nan"

/-- A scalar inside another value. -/
def writeScalar : Scalar → String
  | .null => "None"
  | .bool true => "True"
  | .bool false => "False"
  | .number n => numberLayout.number n
  | .text s => Text.quote s

mutual

/-- A value inside another value. -/
def write : Json → String
  | .scalar s => writeScalar s
  | .array items => "[" ++ Text.join ", " (writeItems items) ++ "]"
  | .object members => "\x7b" ++ Text.join ", " (writeMembers members) ++ "\x7d"

/-- The items of an array. -/
def writeItems : List Json → List String
  | [] => []
  | v :: rest => write v :: writeItems rest

/-- The members of an object. -/
def writeMembers : List (String × Json) → List String
  | [] => []
  | (key, v) :: rest => (Text.quote key ++ ": " ++ write v) :: writeMembers rest

end

/-- The text of a value in a column: none for `null`. -/
def ofJson? : Json → Option String
  | .scalar .null => none
  | .scalar (.text s) => some s
  | v => some (write v)

end CellText
end ScimQuery
