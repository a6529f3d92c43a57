import Mathlib.Data.Rat.Cast.Order
import Mathlib.Tactic.FieldSimp
import Prepaid.Proofs.Money.Rounded

/-!
# What decimals are worth

Decimals with different scales may be the same number. Money made of the same number is
worth the same number of cents.
-/

namespace Prepaid

namespace Decimal

/-- The number that a decimal is. -/
def worth (value : Decimal) : ℚ :=
  value.mantissa / tenTo value.scale

/-- A decimal that is made is worth what it was made from. -/
theorem worth_of_ofMantissa? {mantissa : Int} {scale : Nat} {value : Decimal}
    (made : ofMantissa? mantissa scale = some value) :
    value.worth = (mantissa : ℚ) / tenTo scale := by
  obtain ⟨mantissaEq, scaleEq⟩ := mantissa_ofMantissa? made
  rw [worth, mantissaEq, scaleEq]

/-- A power of ten can be divided by in the rationals. -/
theorem tenTo_cast_ne_zero (places : Nat) : (tenTo places : ℚ) ≠ 0 :=
  Nat.cast_ne_zero.mpr (tenTo_pos places).ne'

/-- Two decimals are the same number if they count the same with each other's places added. -/
theorem worth_eq_iff {left right : Decimal} :
    left.worth = right.worth ↔ left.mantissa * tenTo right.scale =
      right.mantissa * tenTo left.scale := by
  rw [worth, worth, div_eq_div_iff (tenTo_cast_ne_zero _) (tenTo_cast_ne_zero _)]
  exact_mod_cast Iff.rfl

/-- Zero is rounded to zero. -/
@[simp] theorem roundDiv_zero (tie : Tie) {d : Nat} (positive : 0 < d) : roundDiv tie 0 d = 0 := by
  simp [roundDiv, positive]

/-- Rounding to fewer places rounds one quotient. -/
theorem mantissa_roundTo (value : Decimal) {places : Nat} (many : places < value.scale) :
    (value.roundTo .awayFromZero places).mantissa =
      roundQuotient .awayFromZero value.mantissa (tenTo (value.scale - places)) := by
  have rounds : value.roundTo .awayFromZero places = _ := dif_neg (Nat.not_le.mpr many)
  rw [rounds, roundQuotient, natAbs_mantissa]
  by_cases empty : value.coefficient = 0
  · simp [mantissa, empty, roundDiv_zero _ (tenTo_pos _)]
  · have sign : value.mantissa < 0 ↔ value.negative = true := by
      unfold mantissa
      split
      · next negative => exact ⟨fun _ => negative, fun _ => by omega⟩
      · next positive => exact ⟨fun less => by omega, fun negative => (positive negative).elim⟩
    change (if value.negative = true then _ else _) = _
    by_cases negative : value.negative = true
    · rw [if_pos negative, if_pos (sign.mpr negative)]
    · rw [if_neg negative, if_neg fun less => negative (sign.mp less)]

/-- Quantizing rounds to whole hundredths. -/
theorem hundredths_quantize_eq (value : Decimal) : value.quantize.hundredths =
    roundQuotient .awayFromZero (value.mantissa * tenTo Money.places) (tenTo value.scale) := by
  by_cases few : value.scale ≤ Money.places
  · have split : tenTo Money.places = tenTo (Money.places - value.scale) * tenTo value.scale := by
      rw [← tenTo_add]
      congr 1
      omega
    rw [hundredths_quantize value few, hundredths, split, Int.natCast_mul, ← Int.mul_assoc,
      roundQuotient_mul_self _ _ (tenTo_pos _)]
  · have split : tenTo value.scale = tenTo (value.scale - Money.places) * tenTo Money.places := by
      rw [← tenTo_add]
      congr 1
      omega
    rw [split, roundQuotient_mul _ _ _ (tenTo_pos _), ← mantissa_roundTo value (Nat.not_le.mp few)]
    have fewer := scale_roundTo_le .awayFromZero Money.places value
    have worth : (value.roundTo .awayFromZero Money.places).hundredths =
        (value.roundTo .awayFromZero Money.places).mantissa := by
      have scale : (value.roundTo .awayFromZero Money.places).scale = Money.places := by
        rw [roundTo, dif_neg few]
      rw [hundredths, scale, Nat.sub_self, tenTo_zero, Int.natCast_one, Int.mul_one]
    have widened : ((value.roundTo .awayFromZero Money.places).widenTo Money.places).hundredths =
        (value.roundTo .awayFromZero Money.places).hundredths :=
      hundredths_widen _ _ (by omega)
    rw [← worth, quantize]
    split
    · next vanished =>
      -- What is rounded to nothing is replaced by a zero.
      rw [hundredths_eq_zero (Bool.and_eq_true_iff.mp vanished).1]
      rfl
    · exact widened

end Decimal

/-- The cents of a number do not depend on how it is written. -/
theorem Money.cents_ofDecimal_congr {left right : Decimal} (same : left.worth = right.worth) :
    (ofDecimal left).cents = (ofDecimal right).cents := by
  have crossed := Decimal.worth_eq_iff.mp same
  change left.quantize.hundredths = right.quantize.hundredths
  rw [Decimal.hundredths_quantize_eq, Decimal.hundredths_quantize_eq,
    ← roundQuotient_mul _ _ _ (tenTo_pos right.scale),
    ← roundQuotient_mul _ _ (tenTo right.scale) (tenTo_pos left.scale), Int.mul_right_comm, crossed,
    Int.mul_right_comm right.mantissa, Nat.mul_comm]

end Prepaid
