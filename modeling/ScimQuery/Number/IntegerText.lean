import ScimQuery.Number
import ScimQuery.Text.Blank
import ScimQuery.Text.Pieces

/-! # Integers written as texts

The integers that texts write where an integer is wanted.  Around the digits there may be white
space, in front of them a sign and zeros, between them single underscores, and after them a
fraction of zeros.  Zeros may have a minus sign behind them, and any number of underscores. -/

namespace ScimQuery
namespace Number

/-- Whether a character starts the digits that count: a digit that is not zero, or a minus sign. -/
def startsDigits (c : Char) : Bool := (isDigit c && c != '0') || c == '-'

/-- What follows zeros and underscores, of which `last` is the last.  One of them stays in front of
a point, or where nothing follows. -/
def afterZeros (last : Char) : List Char → Option (List Char)
  | [] => some [last]
  | c :: rest =>
    if c = '0' ∨ c = '_' then afterZeros c rest
    else if c = '.' then some (last :: c :: rest)
    else if startsDigits c then some (c :: rest)
    else none

/-- A numeral without the zeros in front of other digits. -/
def dropZeros? : List Char → Option (List Char)
  | [] => none
  | c :: rest =>
    if c = '0' then afterZeros c rest else if startsDigits c then some (c :: rest) else none

/-- What stands before a fraction of zeros only. -/
def dropZeroFraction (s : List Char) : List Char :=
  match Text.cutFirst '.' s with
  | some (whole, fraction) =>
    if !fraction.isEmpty && fraction.all (· == '0') then whole else s
  | none => s

/-- A numeral without its underscores, each of which stands between two other characters. -/
def joinGroups? (s : List Char) : Option (List Char) :=
  let groups := Text.splitOn '_' s
  if groups.any List.isEmpty then none else some groups.flatten

/-- The natural number of digits, of which the first is zero only when it is alone. -/
def plainNatural? (s : List Char) : Option Nat :=
  if s.isEmpty || !s.all isDigit || (s.head? == some '0' && s.length > 1) then none
  else some (ofDigits s)

/-- The integer of a minus sign or none, and digits. -/
def plainInteger? : List Char → Option Int
  | '-' :: rest => (plainNatural? rest).map fun n => -(n : Int)
  | s => (plainNatural? s).map fun n => (n : Int)

/-- A numeral without a sign, in plain digits. -/
def plain? (s : List Char) : Option (List Char) := do
  joinGroups? (dropZeroFraction (← dropZeros? s))

/-- The integer that a text writes. -/
def integerOfText? (s : List Char) : Option Int := do
  match Text.trimWhite s with
  | '+' :: '-' :: _ => none
  | '+' :: rest => plainInteger? (← plain? rest)
  | '-' :: rest => plainInteger? ('-' :: (← plain? rest))
  | rest => plainInteger? (← plain? rest)

end Number
end ScimQuery
