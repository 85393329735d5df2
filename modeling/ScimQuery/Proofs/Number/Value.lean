import Mathlib.Algebra.Order.Field.Power
import Mathlib.Algebra.Order.Field.Rat
import Mathlib.Order.WithBot
import Mathlib.Tactic.FieldSimp
import Mathlib.Tactic.NormNum
import Mathlib.Tactic.Positivity
import ScimQuery.Number

/-! # The value of a number

A double is read by its fields: a sign, an exponent and a fraction, which together are a rational
number, an infinity, or no number at all (`Double.value?`).  An integer is its own value.  Numbers of
both kinds are compared by their places, and a place is a whole number of units; so it has to be
shown that the place of a number is where its value lies (`Number.value?_eq`).  Then two numbers are
in the order of their values, exactly and without rounding (`Number.order?_eq`). -/

namespace ScimQuery

/-- The rational numbers between two infinities. -/
abbrev Extended : Type := WithBot (WithTop ℚ)

/-! ### Values by fields -/

/-- The magnitude of a finite double by its exponent and its fraction: with a one before the point,
or, at the least exponent, with a zero. -/
def Double.magnitude (d : Double) : ℚ :=
  if d.exponentField = 0 then d.fractionField / 2 ^ 52 * 2 ^ (-1022 : ℤ)
  else (1 + d.fractionField / 2 ^ 52) * 2 ^ ((d.exponentField : ℤ) - 1023)

/-- The value of a double by its fields.  The greatest exponent is left for the infinities and for
what is no number. -/
def Double.value? (d : Double) : Option Extended :=
  if d.exponentField < 2047 then
    some (((if d.isNegative then -d.magnitude else d.magnitude : ℚ) : WithTop ℚ) : Extended)
  else if d.fractionField = 0 then some (if d.isNegative then ⊥ else ⊤)
  else none

/-- The value of a number, unless it is a double that is no number. -/
def Number.value? : Number → Option Extended
  | .integer n => some (((n : ℚ) : WithTop ℚ) : Extended)
  | .double d => d.value?

/-- Whether a number is a double that is no number. -/
def Number.isNaN : Number → Bool
  | .integer _ => false
  | .double d => d.isNaN

/-! ### Values of places -/

namespace Place

/-- The value of a place on the number line. -/
def value : Place → Extended
  | .bottom => ⊥
  | .units n => (((n : ℚ) / (2 ^ Double.unitPower : ℚ) : ℚ) : WithTop ℚ)
  | .top => ⊤

theorem units_lt_iff (m n : ℤ) :
    (m : ℚ) / 2 ^ Double.unitPower < (n : ℚ) / 2 ^ Double.unitPower ↔ m < n := by
  have hpos : (0 : ℚ) < 2 ^ Double.unitPower := by positivity
  rw [div_lt_div_iff_of_pos_right hpos, Int.cast_lt]

theorem value_lt_iff (p q : Place) : p.value < q.value ↔ p.order q = .lt := by
  cases p with
  | bottom => cases q <;> simp [value, order]
  | top => cases q <;> simp [value, order]
  | units m =>
      cases q with
      | bottom => simp [value, order]
      | top => exact iff_of_true (WithBot.coe_lt_coe.mpr (WithTop.coe_lt_top _)) rfl
      | units n =>
          rw [value, value, WithBot.coe_lt_coe, WithTop.coe_lt_coe, units_lt_iff, order]
          split
          · simp_all
          · split <;> simp_all

/-- Different places have different values. -/
theorem value_injective : Function.Injective value := by
  intro p q h
  cases p with
  | bottom => cases q <;> simp_all [value]
  | top => cases q <;> simp_all [value]
  | units m =>
      cases q with
      | bottom => simp [value] at h
      | top => simp [value] at h
      | units n =>
          have hpos : (2 ^ Double.unitPower : ℚ) ≠ 0 := by positivity
          rw [value, value, WithBot.coe_inj, WithTop.coe_inj, div_left_inj' hpos, Int.cast_inj] at h
          rw [h]

theorem order_self (p : Place) : p.order p = .eq := by
  cases p with
  | bottom => rfl
  | top => rfl
  | units n => simp [order]

theorem order_swap (p q : Place) : (p.order q).swap = q.order p := by
  cases p with
  | bottom => cases q <;> rfl
  | top => cases q <;> rfl
  | units m =>
      cases q with
      | bottom => rfl
      | top => rfl
      | units n =>
          rw [order, order]
          grind [Ordering.swap]

/-- Places are in the order of their values. -/
theorem order_eq (p q : Place) : p.order q = compare p.value q.value := by
  rcases lt_trichotomy p.value q.value with h | h | h
  · rw [compare_lt_iff_lt.mpr h]
    exact (value_lt_iff p q).mp h
  · rw [compare_eq_iff_eq.mpr h, value_injective h]
    exact q.order_self
  · rw [compare_gt_iff_gt.mpr h, ← order_swap, (value_lt_iff q p).mp h]
    rfl

end Place

namespace Double

/-! ### The place of a double -/

theorem exponentUnit_eq : exponentUnit = 2 ^ 52 := rfl

theorem magnitudeBits_lt (d : Double) : d.magnitudeBits < 2048 * 2 ^ 52 := by
  have h := Nat.mod_lt d.bits.toNat (y := signBit) (by decide)
  exact h

theorem isFinite_iff (d : Double) : d.isFinite = true ↔ d.exponentField < 2047 := by
  unfold isFinite infinityBits exponentField
  rw [decide_eq_true_eq, Nat.div_lt_iff_lt_mul (by decide)]

theorem isNaN_iff (d : Double) :
    d.isNaN = true ↔ ¬ d.exponentField < 2047 ∧ d.fractionField ≠ 0 := by
  have hlt := d.magnitudeBits_lt
  unfold isNaN infinityBits exponentField fractionField
  rw [exponentUnit_eq, decide_eq_true_eq]
  omega

/-- A unit is the last place of the least exponent. -/
theorem least_power : (2 : ℚ) ^ (-1022 : ℤ) = 2 ^ 52 / 2 ^ unitPower := by
  have hpower : (-1022 : ℤ) = (52 : ℕ) - (unitPower : ℕ) := by decide
  rw [hpower, zpow_sub₀ two_ne_zero, zpow_natCast, zpow_natCast]

/-- The units of a finite double are its magnitude. -/
theorem units_div (d : Double) : (d.units : ℚ) / 2 ^ unitPower = d.magnitude := by
  unfold units significand power magnitude
  rw [exponentUnit_eq, Nat.shiftLeft_eq]
  by_cases h : d.exponentField = 0
  · rw [if_pos h, if_pos h, h, least_power]
    generalize unitPower = k
    field_simp
    simp
  · obtain ⟨e, he⟩ := Nat.exists_eq_add_one_of_ne_zero h
    have hpower : ((e + 1 : ℕ) : ℤ) - 1023 = (-1022) + (e : ℕ) := by omega
    rw [if_neg h, if_neg h, he, hpower, zpow_add₀ two_ne_zero, zpow_natCast, least_power]
    generalize unitPower = k
    push_cast
    field_simp
    norm_num

/-- The place of a double is where its value lies. -/
theorem value?_eq (d : Double) : d.value? = d.place?.map Place.value := by
  unfold value? place?
  by_cases hfinite : d.exponentField < 2047
  · rw [if_pos hfinite, if_pos (d.isFinite_iff.mpr hfinite), Option.map_some, Place.value]
    cases d.isNegative with
    | true => simp [← units_div, neg_div]
    | false => simp [← units_div]
  · rw [if_neg hfinite, if_neg (mt d.isFinite_iff.mp hfinite)]
    by_cases hfraction : d.fractionField = 0
    · have hnan : ¬ d.isNaN = true := fun h => (d.isNaN_iff.mp h).2 hfraction
      rw [if_pos hfraction, if_neg hnan]
      cases d.isNegative with
      | true => rfl
      | false => rfl
    · rw [if_neg hfraction, if_pos (d.isNaN_iff.mpr ⟨hfinite, hfraction⟩)]
      rfl

theorem value?_eq_none_iff (d : Double) : d.value? = none ↔ d.isNaN = true := by
  rw [isNaN_iff]
  unfold value?
  grind

end Double

namespace Number

theorem value?_eq (n : Number) : n.value? = n.place?.map Place.value := by
  cases n with
  | integer n =>
      have hone : ((Double.unitsInOne : ℤ) : ℚ) = 2 ^ Double.unitPower := by
        rw [Double.unitsInOne, Nat.shiftLeft_eq]
        push_cast
        rw [one_mul]
      have hpos : (2 ^ Double.unitPower : ℚ) ≠ 0 := by positivity
      simp only [value?, place?, Option.map_some, Place.value]
      rw [Int.cast_mul, hone, mul_div_cancel_right₀ _ hpos]
  | double d => exact d.value?_eq

theorem value?_eq_none_iff (n : Number) : n.value? = none ↔ n.isNaN = true := by
  cases n with
  | integer n => simp [value?, isNaN]
  | double d => exact d.value?_eq_none_iff

/-- Two numbers stand to each other as their values do. -/
theorem order?_eq {x y : Number} {a b : Extended} (hx : x.value? = some a) (hy : y.value? = some b) :
    x.order? y = some (compare a b) := by
  rw [value?_eq] at hx hy
  obtain ⟨p, hp, rfl⟩ := Option.map_eq_some_iff.mp hx
  obtain ⟨q, hq, rfl⟩ := Option.map_eq_some_iff.mp hy
  rw [order?, hp, hq, ← Place.order_eq]

end Number
end ScimQuery
