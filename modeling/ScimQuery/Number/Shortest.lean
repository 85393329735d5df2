import ScimQuery.Number.Double

/-! # Shortest decimals

The decimal with the fewest digits that reads back as a given double; of several, the one nearest
to the double.  It is found on ever finer decimal grids: on the coarsest grid that has a point
reading back, one of the two neighbours of the double reads back. -/

namespace ScimQuery

/-- The number `digits * 10 ^ exponent`. -/
structure Decimal where
  digits : Nat
  exponent : Int
  deriving DecidableEq, Repr, Inhabited

namespace Double

/-- The magnitude of a double in steps of `10 ^ exponent`, as a fraction. -/
def steps (d : Double) (exponent : Int) : Nat × Nat :=
  if 0 ≤ exponent then (d.units, unitsInOne * powerOfTen exponent.toNat)
  else (d.units * powerOfTen (-exponent).toNat, unitsInOne)

/-- Whether a decimal reads back as the double, its sign aside. -/
def readsBack (d : Double) (x : Decimal) : Bool :=
  0 < x.digits && (ofDecimal d.isNegative x.digits x.exponent == d)

/-- The neighbour of the double on the grid of `10 ^ exponent` that reads back as it, the nearer
one when both do and the even one when they are equally near. -/
def gridPoint? (d : Double) (exponent : Int) : Option Decimal :=
  let (num, den) := d.steps exponent
  let low : Decimal := ⟨num / den, exponent⟩
  let high : Decimal := ⟨num / den + 1, exponent⟩
  match d.readsBack low, d.readsBack high with
  | true, true => some ⟨roundHalfEven num den, exponent⟩
  | true, false => some low
  | false, true => some high
  | false, false => none

/-- The first of the grids `10 ^ exponent`, `10 ^ (exponent - 1)`, … with a point that reads
back. -/
def shortestFrom (d : Double) : (grids : Nat) → (exponent : Int) → Decimal
  | 0, exponent => ⟨(d.steps exponent).1 / (d.steps exponent).2, exponent⟩
  | grids + 1, exponent =>
    match d.gridPoint? exponent with
    | some x => x
    | none => d.shortestFrom grids (exponent - 1)

/-- A grid too coarse to have a point between zero and twice the double. -/
def coarseExponent (d : Double) : Int :=
  ((Nat.log2 d.units + 1 : Nat) - (unitPower : Int)) * 30103 / 100000 + 2

/-- The shortest decimal that reads back as a finite double other than zero.  Seventeen digits
always suffice. -/
def shortest (d : Double) : Decimal := d.shortestFrom 24 d.coarseExponent

end Double
end ScimQuery
