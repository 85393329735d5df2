import ScimQuery.Number.Double

/-! # Numbers

A number is an integer of any size or a double.  Numbers of both kinds are compared by their
place on the extended number line, which is exact: an integer equals a double only when the two
are the same real number. -/

namespace ScimQuery

/-- An integer of any size, or a double. -/
inductive Number where
  | integer (n : Int)
  | double (d : Double)
  deriving DecidableEq, Repr, Inhabited

/-- A place on the extended number line: a number of units of `2 ^ (-1074)`, or an end. -/
inductive Place where
  | bottom
  | units (n : Int)
  | top
  deriving DecidableEq, Repr, Inhabited

namespace Place

/-- The order of the extended number line. -/
def order : Place → Place → Ordering
  | .bottom, .bottom => .eq
  | .bottom, _ => .lt
  | .units _, .bottom => .gt
  | .units m, .units n => if m < n then .lt else if m = n then .eq else .gt
  | .units _, .top => .lt
  | .top, .top => .eq
  | .top, _ => .gt

end Place

/-- The place of a double, unless it is no number. -/
def Double.place? (d : Double) : Option Place :=
  if d.isFinite then some (.units (if d.isNegative then -(d.units : Int) else d.units))
  else if d.isNaN then none
  else some (if d.isNegative then .bottom else .top)

namespace Number

/-- The place of a number, unless it is a double that is no number. -/
def place? : Number → Option Place
  | .integer n => some (.units (n * (Double.unitsInOne : Int)))
  | .double d => d.place?

/-- How one number stands to another, unless one of them is no number. -/
def order? (x y : Number) : Option Ordering :=
  match x.place?, y.place? with
  | some p, some q => some (p.order q)
  | _, _ => none

/-! ### Digits -/

/-- A decimal digit. -/
def isDigit (c : Char) : Bool := '0' ≤ c && c ≤ '9'

/-- The number that decimal digits write, the most significant first. -/
def ofDigits (digits : List Char) : Nat := digits.foldl (fun n c => 10 * n + (c.toNat - 48)) 0

/-- The number with a given sign, digits before the point, digits after it if it has a point, and
power of ten.  It is a double when it has a point or a power of ten. -/
def ofParts (negative : Bool) (whole : List Char) (fraction : Option (List Char))
    (exponent : Option Int) : Number :=
  match fraction, exponent with
  | none, none => .integer (if negative then -(ofDigits whole : Int) else ofDigits whole)
  | fraction, exponent =>
    let fraction := fraction.getD []
    .double (Double.ofDecimal negative (ofDigits (whole ++ fraction))
      (exponent.getD 0 - fraction.length))

end Number
end ScimQuery
