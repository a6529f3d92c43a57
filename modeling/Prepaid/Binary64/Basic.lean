import Prepaid.Decimal.Power
import Prepaid.Decimal.Rounding

/-!
# Finite binary64 numbers

A number of 53 significant bits times a power of two, computed with exact
integers. Every operation forms its exact result as a quotient of naturals and
rounds it once, a half to the even neighbour.
-/

namespace Prepaid

/-- The finite number `significand * 2 ^ exponent` with a sign, which zero has too. -/
structure Binary64 where
  negative : Bool
  significand : Nat
  exponent : Int
  deriving DecidableEq, Repr

namespace Binary64

/-- The number of significant bits. -/
abbrev precision : Nat := 53

/-- The smallest exponent, which small numbers share. -/
abbrev minExponent : Int := -1074

/-- The largest exponent of a finite number. -/
abbrev maxExponent : Int := 971

/-- The exponent that leaves the quotient `num / den` with all significant bits before the point,
or the smallest exponent. -/
def unitExponent (num den : Nat) : Int :=
  let leading : Int := (Nat.log2 num : Int) - Nat.log2 den
  let leading :=
    if den * twoTo leading.toNat ≤ num * twoTo (-leading).toNat then leading else leading - 1
  max (leading - (precision - 1)) minExponent

/-- The number nearest to `num / den`, or nothing when that is infinite. -/
def ofQuotient? (negative : Bool) (num den : Nat) : Option Binary64 :=
  if num = 0 then some ⟨negative, 0, minExponent⟩
  else
    let exponent := unitExponent num den
    let rounded := roundDiv .toEven (num * twoTo (-exponent).toNat) (den * twoTo exponent.toNat)
    let (significand, exponent) :=
      if rounded = twoTo precision then (twoTo (precision - 1), exponent + 1)
        else (rounded, exponent)
    if exponent ≤ maxExponent then some ⟨negative, significand, exponent⟩ else none

/-- Zero with a sign. -/
def zero (negative : Bool) : Binary64 := ⟨negative, 0, minExponent⟩

def isZero (value : Binary64) : Bool :=
  value.significand = 0

/-- The same number with another sign. -/
def withSign (negative : Bool) (value : Binary64) : Binary64 :=
  { value with negative }

/-- The numerator and denominator of the absolute value. -/
def quotient (value : Binary64) : Nat × Nat :=
  (value.significand * twoTo value.exponent.toNat, twoTo (-value.exponent).toNat)

/-- The natural nearest to a binary64 number. -/
def ofNat? (value : Nat) : Option Binary64 :=
  ofQuotient? false value 1

/-- The product of the absolute value with a power of ten that is itself a binary64 number. -/
def timesPowerOfTen? (value : Binary64) (power : Nat) : Option Binary64 :=
  (ofNat? (tenTo power)).bind fun factor =>
    let (num, den) := value.quotient
    let (factorNum, factorDen) := factor.quotient
    ofQuotient? value.negative (num * factorNum) (den * factorDen)

/-- The quotient of the absolute value by a power of ten that is itself a binary64 number. -/
def overPowerOfTen? (value : Binary64) (power : Nat) : Option Binary64 :=
  (ofNat? (tenTo power)).bind fun divisor =>
    let (num, den) := value.quotient
    let (divisorNum, divisorDen) := divisor.quotient
    ofQuotient? value.negative (num * divisorDen) (den * divisorNum)

/-- The number nearest to `digits * 10 ^ exponent`, or nothing when that is infinite. -/
def ofDecimal? (negative : Bool) (digits : Nat) (exponent : Int) : Option Binary64 :=
  let size : Int := (Nat.toDigits 10 digits).length + exponent
  if digits = 0 ∨ size < -400 then some (zero negative)
  else if 400 < size then none
  else ofQuotient? negative (digits * tenTo exponent.toNat) (tenTo (-exponent).toNat)

end Binary64

end Prepaid
