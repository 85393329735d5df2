import ScimQuery.Number
import ScimQuery.Text.Blank
import ScimQuery.Text.Digit
import ScimQuery.Text.Pieces

/-! # Numerals

The numbers that texts write.  Beside the literals of filters these are numerals with white space
around them, a plus sign, underscores between digits, nothing on one side of the point, an
exponent, or digits of another script.  A numeral with a point writes a double, any other an
integer.  An integer is read only up to a limit on the number of its digits, a double from any
number of them. -/

namespace ScimQuery
namespace Number

/-- The digits of a numeral whose underscores each stand between two digits. -/
def digits? (s : List Char) : Option (List Char) :=
  let groups := Text.splitOn '_' s
  if groups.all (fun g => !g.isEmpty && g.all isDigit) then some groups.flatten else none

/-- The digits on one side of a point, where there may be none. -/
def sideDigits? (s : List Char) : Option (List Char) := if s.isEmpty then some [] else digits? s

/-- Whether a numeral is negative, and what follows its sign. -/
def cutSign : List Char → Bool × List Char
  | '-' :: s => (true, s)
  | '+' :: s => (false, s)
  | s => (false, s)

/-- The exponent that stands after the digits of a numeral: zero where nothing does. -/
def exponent? : List Char → Option Int
  | [] => some 0
  | _ :: s =>
    let (negative, digits) := cutSign s
    (digits? digits).map fun ds => if negative then -(ofDigits ds : Int) else ofDigits ds

/-- The double that a numeral with a point writes after its sign. -/
def pointed? (negative : Bool) (s : List Char) : Option Number := do
  let beforeExponent := fun c => c != 'e' && c != 'E'
  let exponent ← exponent? (s.dropWhile beforeExponent)
  let (whole, fraction) ← Text.cutFirst '.' (s.takeWhile beforeExponent)
  let whole ← sideDigits? whole
  let fraction ← sideDigits? fraction
  if whole.isEmpty && fraction.isEmpty then none
  else some (ofParts negative whole (some fraction) (some exponent))

/-- The number of digits that an integer may be written with. -/
def digitLimit : Nat := 4300

/-- Why a text is not read as a number. -/
inductive NumeralFault where
  /-- The text is no numeral. -/
  | malformed
  /-- The text starts with an integer of more digits than are read. -/
  | tooManyDigits (count : Nat)
  deriving DecidableEq, Repr

/-- The integer that a numeral without a point writes after its sign.  The digits are counted before
anything that follows them is looked at. -/
def integral (limit : Nat) (negative : Bool) (s : List Char) : Except NumeralFault Number :=
  let inRun := fun c => isDigit c || c == '_'
  match digits? (s.takeWhile inRun) with
  | none => .error .malformed
  | some ds =>
    if limit < ds.length then .error (.tooManyDigits ds.length)
    else if (s.dropWhile inRun).isEmpty then .ok (ofParts negative ds none none)
    else .error .malformed

/-- The number that a numeral writes, where an integer may have as many digits as a limit says. -/
def ofNumeral (limit : Nat) (s : List Char) : Except NumeralFault Number :=
  let (negative, rest) := cutSign (Text.trimWhite (s.map Text.plainDigit))
  if s.contains '.' then
    match pointed? negative rest with
    | some x => .ok x
    | none => .error .malformed
  else integral limit negative rest

end Number
end ScimQuery
