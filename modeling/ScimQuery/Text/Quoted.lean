import ScimQuery.Text.Hex
import ScimQuery.Text.Printable

/-! # Quoted texts in messages

How a text is shown inside a message: between single quotes, or between double quotes when it
holds a single quote and no double quote.  A backslash and the chosen quote are escaped, and a
character that cannot be printed is written by its number. -/

namespace ScimQuery
namespace Text

/-- The quote character that needs the fewest escapes, a single one where both do. -/
def quoteMark (s : List Char) : Char :=
  if s.contains '\'' && !s.contains '"' then '"' else '\''

/-- One character between quote characters `mark`. -/
def quoteChar (mark c : Char) : List Char :=
  if c = mark ∨ c = '\\' then ['\\', c]
  else if c = '\n' then ['\\', 'n']
  else if c = '\r' then ['\\', 'r']
  else if c = '\t' then ['\\', 't']
  else if isPrintable c then [c]
  else if c.toNat ≤ 0xFF then '\\' :: 'x' :: hex 2 c.toNat
  else if c.toNat ≤ 0xFFFF then '\\' :: 'u' :: hex 4 c.toNat
  else '\\' :: 'U' :: hex 8 c.toNat

/-- A text as a message shows it. -/
def quote (s : String) : String :=
  let mark := quoteMark s.toList
  String.ofList (mark :: s.toList.flatMap (quoteChar mark) ++ [mark])

end Text
end ScimQuery
