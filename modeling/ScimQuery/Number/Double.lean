/-! # Doubles

Binary floating-point numbers of 64 bits, held as their bits.  A finite double stands for an
integer number of *units*, a unit being `2 ^ (-1074)`, the least positive double; so doubles are
compared, and integers with them, exactly and in integers.  `Double.ofRatio` is the double
nearest to a fraction. -/

namespace ScimQuery

/-- A binary floating-point number, by its sign, exponent and fraction bits. -/
structure Double where
  bits : UInt64
  deriving DecidableEq, Repr, Inhabited

namespace Double

/-! ### Parts of a double -/

/-- The value of the sign bit, above 63 others. -/
def signBit : Nat := 1 <<< 63

/-- The value of the lowest exponent bit, above the 52 fraction bits. -/
def exponentUnit : Nat := 1 <<< 52

/-- Whether the sign bit is set. -/
def isNegative (d : Double) : Bool := signBit ≤ d.bits.toNat

/-- The bits without the sign. -/
def magnitudeBits (d : Double) : Nat := d.bits.toNat % signBit

/-- The exponent bits. -/
def exponentField (d : Double) : Nat := d.magnitudeBits / exponentUnit

/-- The fraction bits. -/
def fractionField (d : Double) : Nat := d.magnitudeBits % exponentUnit

/-- The magnitude bits of the infinities: every exponent bit and no fraction bit. -/
def infinityBits : Nat := 2047 * exponentUnit

/-- Neither infinite nor no number at all. -/
def isFinite (d : Double) : Bool := d.magnitudeBits < infinityBits

/-- Not a number. -/
def isNaN (d : Double) : Bool := infinityBits < d.magnitudeBits

/-- The significand of a finite double. -/
def significand (d : Double) : Nat :=
  if d.exponentField = 0 then d.fractionField else exponentUnit + d.fractionField

/-- The number of units that one step of the significand of a finite double stands for, as a
power of two. -/
def power (d : Double) : Nat := d.exponentField - 1

/-- The magnitude of a finite double in units. -/
def units (d : Double) : Nat := d.significand <<< d.power

/-- The number of units in one, as a power of two. -/
def unitPower : Nat := 1074

/-- The number of units in one. -/
def unitsInOne : Nat := 1 <<< unitPower

/-! ### The double nearest to a fraction -/

/-- The double of a given sign and magnitude. -/
def ofBits (negative : Bool) (magnitude : Nat) : Double :=
  ⟨UInt64.ofNat (if negative then signBit + magnitude else magnitude)⟩

/-- Positive zero. -/
def zero : Double := ofBits false 0

/-- The infinity of a given sign. -/
def infinity (negative : Bool) : Double := ofBits negative infinityBits

/-- The double that is no number. -/
def nan : Double := ofBits false (infinityBits + exponentUnit / 2)

/-- The integer nearest to `num / den`, the even one of two. -/
def roundHalfEven (num den : Nat) : Nat :=
  let q := num / den
  let twice := 2 * (num % den)
  if twice < den then q
  else if den < twice then q + 1
  else q + q % 2

/-- The magnitude bits of the double nearest to `num / den`.  A significand that rounds up to the
next power of two carries into the exponent, and what is too large becomes infinite. -/
def nearestBits (num den : Nat) : Nat :=
  let scaled := num * unitsInOne
  let power := Nat.log2 (scaled / den) - 52
  min infinityBits (power * exponentUnit + roundHalfEven scaled (den <<< power))

/-- The double nearest to `num / den`, with a given sign. -/
def ofRatio (negative : Bool) (num den : Nat) : Double :=
  ofBits negative (nearestBits num den)

/-- The power of ten with a given exponent. -/
def powerOfTen (n : Nat) : Nat := Nat.pow 10 n

/-- The double nearest to `digits * 10 ^ exponent`, with a given sign.  Exponents far out of range
are settled without computing the power. -/
def ofDecimal (negative : Bool) (digits : Nat) (exponent : Int) : Double :=
  if digits = 0 then ofBits negative 0
  else if 400 < exponent then infinity negative
  else if exponent + Nat.log2 digits + 1 < -400 then ofBits negative 0
  else if 0 ≤ exponent then ofRatio negative (digits * powerOfTen exponent.toNat) 1
  else ofRatio negative digits (powerOfTen (-exponent).toNat)

end Double
end ScimQuery
