import Prepaid.Money
import Prepaid.Proofs.Decimal.Text
import Prepaid.Proofs.Money.Exact

/-!
# Written money

Money is stored quantized, but for the zero that no text has been read for. Quantizing
twice is quantizing once, so money that has been read from a text, written and read
again is stored as before. A zero with a minus sign alone loses the sign on the way.
-/

namespace Prepaid

namespace Decimal

/-- Widening stops for good where the coefficient has no room. -/
theorem widen_widen_sub (steps : Nat) (value : Decimal) :
    (value.widen steps).widen (value.scale + steps - (value.widen steps).scale) =
      value.widen steps := by
  induction steps generalizing value with
  | zero => simp [widen]
  | succ steps ih =>
    -- Either the first step is taken, or none ever is.
    by_cases fits : value.coefficient * 10 ≤ maxCoefficient ∧ value.scale + 1 ≤ maxScale
    · have wider : value.widen (steps + 1) = _ := dif_pos fits
      have later := ih ⟨value.negative, value.coefficient * 10, value.scale + 1, fits.1, fits.2⟩
      rw [wider]
      simpa only [Nat.add_assoc, Nat.add_comm 1] using later
    · have full : value.widen (steps + 1) = value := dif_neg fits
      rw [full, Nat.add_sub_cancel_left, full]

/-- Widening to a number of places happens once. -/
theorem widenTo_widenTo {places : Nat} {value : Decimal} (few : value.scale ≤ places) :
    (value.widenTo places).widenTo places = value.widenTo places := by
  have sum : value.scale + (places - value.scale) = places := by omega
  have stopped := widen_widen_sub (places - value.scale) value
  rwa [sum] at stopped

/-- A decimal of at most two places is only widened. -/
theorem quantize_of_few {value : Decimal} (few : value.scale ≤ Money.places) :
    value.quantize = value.widenTo Money.places := by
  have kept : value.roundTo .awayFromZero Money.places = value := dif_pos few
  simp only [quantize, kept, Bool.and_not_self, Bool.false_eq_true, if_false]

/-- Quantizing happens once. -/
@[simp] theorem quantize_quantize (value : Decimal) : value.quantize.quantize = value.quantize := by
  rw [quantize_of_few value.scale_quantize_le, quantize]
  split
  · exact widenTo_widenTo (Nat.zero_le _)
  · exact widenTo_widenTo (scale_roundTo_le ..)

/-- Reading back and widening commute. -/
theorem reread_widen (steps : Nat) (value : Decimal) :
    (value.widen steps).reread = value.reread.widen steps := by
  induction steps generalizing value with
  | zero => rfl
  | succ steps ih =>
    by_cases fits : value.coefficient * 10 ≤ maxCoefficient ∧ value.scale + 1 ≤ maxScale
    · have wider : value.widen (steps + 1) = _ := dif_pos fits
      have widerToo : value.reread.widen (steps + 1) = _ := dif_pos fits
      have zero : value.coefficient * 10 = 0 ↔ value.coefficient = 0 := by omega
      rw [wider, widerToo, ih]
      simp only [reread, isZero, zero]
    · have full : value.widen (steps + 1) = value := dif_neg fits
      have fullToo : value.reread.widen (steps + 1) = value.reread := dif_neg fits
      rw [full, fullToo]

/-- Reading back and quantizing commute. -/
theorem quantize_reread {value : Decimal} (few : value.scale ≤ Money.places) :
    value.reread.quantize = value.quantize.reread := by
  have rereadFew : value.reread.scale ≤ Money.places := few
  rw [quantize_of_few few, quantize_of_few rereadFew, widenTo, widenTo, reread_widen]
  rfl

end Decimal

namespace Money

/-- Amounts of one decimal are the same. -/
theorem eq_of_value {left right : Money} (same : left.value = right.value) : left = right := by
  cases left
  cases right
  cases same
  rfl

/-- A zero with a minus sign. -/
def isMinusZero (money : Money) : Bool :=
  money.value.isMinusZero

/-- Money that is stored as a text of it is. -/
def Quantized (money : Money) : Prop :=
  money.value.quantize = money.value

/-- An amount made from a decimal is quantized. -/
theorem quantized_ofDecimal (value : Decimal) : (ofDecimal value).Quantized :=
  value.quantize_quantize

/-- The money that is read from the text of some. -/
def reread (money : Money) : Money :=
  .ofDecimal money.value.reread

/-- Money is read back with the same worth. -/
@[simp] theorem cents_reread (money : Money) : money.reread.cents = money.cents := by
  have few : money.value.reread.scale ≤ places := money.places_le
  rw [reread, cents_ofDecimal few, Decimal.hundredths, Decimal.mantissa_reread]
  rfl

/-- No text is read as a zero with a minus sign again. -/
theorem isMinusZero_reread (money : Money) : money.reread.isMinusZero = false := by
  change money.value.reread.quantize.isMinusZero = false
  rw [Decimal.quantize_reread money.places_le, Decimal.isMinusZero_reread]

namespace Quantized

variable {money : Money} (quantized : money.Quantized)

include quantized

/-- An amount comes back as its decimal does. -/
theorem value_reread : money.reread.value = money.value.reread := by
  change money.value.reread.quantize = money.value.reread
  rw [Decimal.quantize_reread money.places_le, quantized]

/-- An amount that is not minus zero comes back as it was. -/
theorem reread_eq (plain : money.isMinusZero = false) : money.reread = money := by
  have value := quantized.value_reread
  rw [Decimal.reread_eq_self_iff.mpr plain] at value
  exact eq_of_value value

/-- An amount is printed as before exactly if it is not minus zero. -/
theorem toText_reread_eq_iff :
    money.reread.value.toText = money.value.toText ↔ money.isMinusZero = false := by
  rw [quantized.value_reread]
  exact Decimal.toText_reread_eq_iff

end Quantized

end Money

namespace Amount

/-- A positive amount is not minus zero. -/
theorem isMinusZero_eq_false (amount : Amount) : amount.money.isMinusZero = false := by
  have positive := amount.positive
  cases minus : amount.money.isMinusZero
  · rfl
  · obtain ⟨_, empty⟩ := Bool.and_eq_true_iff.mp minus
    have nothing : amount.money.cents = 0 := Decimal.hundredths_eq_zero empty
    omega

/-- The amount that is read from the text of one. -/
def reread (amount : Amount) : Amount :=
  ⟨amount.money.reread, by simpa using amount.positive⟩

/-- An amount that has been read once is read as it is. -/
theorem reread_eq {amount : Amount} (quantized : amount.money.Quantized) :
    amount.reread = amount := by
  have same := quantized.reread_eq amount.isMinusZero_eq_false
  obtain ⟨money, positive⟩ := amount
  simp only [reread, Amount.mk.injEq]
  exact same

end Amount

end Prepaid
