import ScimQuery.Number
import ScimQuery.Number.Shortest

/-! # Number texts

How numbers are written.  A double is written with its shortest decimal, and a `NumberLayout`
says where positional writing ends and what stands for the values that have no digits. -/

namespace ScimQuery

/-- The choices made in writing doubles. -/
structure NumberLayout where
  /-- Positional writing needs more than this many places before the point. -/
  leastPlaces : Int
  /-- Positional writing needs at most this many places before the point. -/
  mostPlaces : Int
  /-- The least number of digits of a written exponent. -/
  exponentDigits : Nat
  /-- The text of infinity. -/
  infinity : String
  /-- The text of a double that is no number. -/
  notNumber : String

namespace Decimal

/-- The digits of a decimal. -/
def text (x : Decimal) : List Char := (toString x.digits).toList

/-- The number of places before the point: of `0.05` it is minus one. -/
def places (x : Decimal) : Int := x.text.length + x.exponent

/-- A decimal in positional writing, always with a digit on both sides of the point. -/
def positional (x : Decimal) : List Char :=
  let digits := x.text
  if x.places ≤ 0 then '0' :: '.' :: List.replicate (-x.places).toNat '0' ++ digits
  else if 0 ≤ x.exponent then digits ++ List.replicate x.exponent.toNat '0' ++ ['.', '0']
  else digits.take x.places.toNat ++ '.' :: digits.drop x.places.toNat

/-- Digits with zeros in front, up to a least number of them. -/
def padded (least : Nat) (digits : List Char) : List Char :=
  List.replicate (least - digits.length) '0' ++ digits

/-- A decimal with one digit before the point and a power of ten. -/
def scientific (exponentDigits : Nat) (x : Decimal) : List Char :=
  let power := x.places - 1
  let sign := if power < 0 then '-' else '+'
  let mantissa := match x.text with
    | [] => []
    | [d] => [d]
    | d :: rest => d :: '.' :: rest
  mantissa ++ 'e' :: sign :: padded exponentDigits (toString power.natAbs).toList

end Decimal

namespace NumberLayout

/-- The text of a decimal. -/
def decimal (layout : NumberLayout) (x : Decimal) : List Char :=
  if layout.leastPlaces < x.places ∧ x.places ≤ layout.mostPlaces then x.positional
  else x.scientific layout.exponentDigits

/-- The text of the magnitude of a double that is a number. -/
def magnitude (layout : NumberLayout) (d : Double) : List Char :=
  if !d.isFinite then layout.infinity.toList
  else if d.significand = 0 then ['0', '.', '0']
  else layout.decimal d.shortest

/-- The text of a double. -/
def double (layout : NumberLayout) (d : Double) : String :=
  if d.isNaN then layout.notNumber
  else if d.isNegative then String.ofList ('-' :: layout.magnitude d)
  else String.ofList (layout.magnitude d)

/-- The text of a number. -/
def number (layout : NumberLayout) : Number → String
  | .integer n => toString n
  | .double d => layout.double d

end NumberLayout
end ScimQuery
