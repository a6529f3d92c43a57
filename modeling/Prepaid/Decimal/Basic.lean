import Prepaid.Decimal.Power
import Prepaid.Decimal.Rounding

/-!
# Decimals of 96 bits

A decimal is a coefficient over a power of ten, with a sign. The coefficient has
at most 96 bits and there are at most 28 places, so addition can lose places and
can overflow. `roundTo` removes places, `widenTo` adds them while the coefficient
allows, and `add?` drops the fewest digits that make the exact sum fit.

Zero has a sign too. `mantissa` is the signed integer that a decimal counts with;
numbers are compared through it, so both zeros are equal there.
-/

namespace Prepaid

/-- The largest coefficient, `2 ^ 96 - 1`. -/
abbrev Decimal.maxCoefficient : Nat := 79228162514264337593543950335

/-- The largest number of places. -/
abbrev Decimal.maxScale : Nat := 28

/-- The number `coefficient / 10 ^ scale` with a sign, which zero has too. -/
structure Decimal where
  negative : Bool := false
  coefficient : Nat
  scale : Nat
  coefficient_le : coefficient ≤ Decimal.maxCoefficient := by decide
  scale_le : scale ≤ Decimal.maxScale := by decide
  deriving DecidableEq

namespace Decimal

instance : Repr Decimal where
  reprPrec value _ :=
    (if value.negative then "-" else "") ++ repr value.coefficient ++ "e-" ++ repr value.scale

/-- Zero without places. -/
def zero : Decimal := { coefficient := 0, scale := 0 }

instance : Inhabited Decimal := ⟨zero⟩

def isZero (value : Decimal) : Bool :=
  value.coefficient = 0

/-- The coefficient with the sign of the number. -/
def mantissa (value : Decimal) : Int :=
  if value.negative then -(value.coefficient : Int) else value.coefficient

/-- A mantissa is a coefficient with a sign. -/
@[simp] theorem natAbs_mantissa (value : Decimal) : value.mantissa.natAbs = value.coefficient := by
  unfold mantissa
  split <;> omega

/-- The decimal of a mantissa and a scale, when both are in range. Its zero is positive. -/
def ofMantissa? (mantissa : Int) (scale : Nat) : Option Decimal :=
  if fits : mantissa.natAbs ≤ maxCoefficient ∧ scale ≤ maxScale then
    some ⟨mantissa < 0, mantissa.natAbs, scale, fits.1, fits.2⟩
  else
    none

/-- The number with the other sign. Either zero stays as it is. -/
def neg (value : Decimal) : Decimal :=
  if value.isZero then value else { value with negative := !value.negative }

/-- Negating a decimal negates its mantissa. -/
theorem mantissa_neg (value : Decimal) : value.neg.mantissa = -value.mantissa := by
  by_cases empty : value.coefficient = 0
  · simp [neg, isZero, mantissa, empty]
  · cases sign : value.negative <;> simp [neg, isZero, mantissa, empty, sign]

/-- How two decimals compare as numbers, whatever their scales. -/
def compare (left right : Decimal) : Ordering :=
  Ord.compare (left.mantissa * tenTo right.scale) (right.mantissa * tenTo left.scale)

/-- Removes the places beyond `places`, rounding to the nearest; a half goes as `tie` says. The
sign stays, also when nothing else does. -/
def roundTo (tie : Tie) (places : Nat) (value : Decimal) : Decimal :=
  if few : value.scale ≤ places then value
  else
    { negative := value.negative
      coefficient := roundDiv tie value.coefficient (tenTo (value.scale - places))
      scale := places
      coefficient_le := by
        have base : 10 ≤ tenTo (value.scale - places) := ten_le_tenTo (by omega)
        have shrinks :=
          roundDiv_le_self tie value.coefficient (tenTo (value.scale - places)) (by omega)
        exact Nat.le_trans shrinks value.coefficient_le
      scale_le := by
        have := value.scale_le
        omega }

/-- Rounding to a number of places leaves no more of them. -/
theorem scale_roundTo_le (tie : Tie) (places : Nat) (value : Decimal) :
    (value.roundTo tie places).scale ≤ places := by
  unfold roundTo
  split
  · assumption
  · exact Nat.le_refl _

/-- Adds up to `steps` places, as long as the coefficient stays in range. -/
def widen : (steps : Nat) → Decimal → Decimal
  | 0, value => value
  | steps + 1, value =>
    if fits : value.coefficient * 10 ≤ maxCoefficient ∧ value.scale + 1 ≤ maxScale then
      widen steps ⟨value.negative, value.coefficient * 10, value.scale + 1, fits.1, fits.2⟩
    else
      value

/-- Widening adds at most one place a step: it stops early when the coefficient would not fit. -/
theorem scale_widen_le (steps : Nat) (value : Decimal) :
    (value.widen steps).scale ≤ value.scale + steps := by
  induction steps generalizing value with
  | zero => simp [widen]
  | succ steps ih =>
    unfold widen
    split
    · next fits =>
      have step :=
        ih ⟨value.negative, value.coefficient * 10, value.scale + 1, fits.1, fits.2⟩
      simp only at step
      omega
    · omega

/-- Widens to `places`, or as near to it as the coefficient allows. -/
def widenTo (places : Nat) (value : Decimal) : Decimal :=
  value.widen (places - value.scale)

/-- Widening to a number of places does not pass it. -/
theorem scale_widenTo_le (places : Nat) (value : Decimal) (few : value.scale ≤ places) :
    (value.widenTo places).scale ≤ places := by
  have widened := scale_widen_le (places - value.scale) value
  unfold widenTo
  omega

/-- The number `mantissa / 10 ^ scale` with the fewest last places dropped so that it is in range.
The digits lost are rounded, a half to the even neighbour. -/
def fit? (mantissa : Int) (scale : Nat) : Option Decimal :=
  (List.range (scale + 1)).findSome? fun dropped =>
    ofMantissa? (roundQuotient .toEven mantissa (tenTo dropped)) (scale - dropped)

/-- The sum, or nothing when it is out of range even without places. A zero leaves the other
number as it is, and of two zeros the right one stays. -/
def add? (left right : Decimal) : Option Decimal :=
  if left.isZero then some right
  else if right.isZero then some left
  else
    let scale := max left.scale right.scale
    fit? (left.mantissa * tenTo (scale - left.scale) + right.mantissa * tenTo (scale - right.scale))
      scale

/-- The difference, or nothing when it is out of range even without places. -/
def sub? (left right : Decimal) : Option Decimal :=
  left.add? right.neg

end Decimal

end Prepaid
