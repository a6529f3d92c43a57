import Prepaid.Money

/-!
# Exact sums of money

Money keeps two places as long as its coefficient has room for them, so a sum or a
difference of at most `Decimal.maxCoefficient` cents is exact, whatever scales its
operands are stored with. Beyond that places are dropped. What remains true there
is the sign, and that a difference of two sums that are not negative always exists.
-/

namespace Prepaid

namespace Decimal

/-- What a decimal of at most two places is worth in hundredths. -/
def hundredths (value : Decimal) : Int :=
  value.mantissa * tenTo (Money.places - value.scale)

/-- Widening adds zeros only, so the worth stays. -/
theorem hundredths_widen (steps : Nat) (value : Decimal)
    (few : value.scale + steps ≤ Money.places) :
    (value.widen steps).hundredths = value.hundredths := by
  induction steps generalizing value with
  | zero => rfl
  | succ steps ih =>
    unfold widen
    split
    · next fits =>
      rw [ih _ (by simp only; omega)]
      have places : Money.places - value.scale = Money.places - (value.scale + 1) + 1 := by omega
      cases sign : value.negative <;>
        simp only [hundredths, mantissa, sign, places, tenTo_succ] <;> push_cast <;> grind
    · rfl

/-- Quantizing a decimal of at most two places only changes how it is stored. -/
theorem hundredths_quantize (value : Decimal) (few : value.scale ≤ Money.places) :
    value.quantize.hundredths = value.hundredths := by
  have kept : value.roundTo .awayFromZero Money.places = value := dif_pos few
  simp only [quantize, kept, Bool.and_not_self, Bool.false_eq_true, if_false]
  exact hundredths_widen _ _ (by omega)

/-- Negating keeps the scale. -/
@[simp] theorem scale_neg (value : Decimal) : value.neg.scale = value.scale := by
  unfold neg
  split <;> rfl

/-- Negating negates the hundredths. -/
@[simp] theorem hundredths_neg (value : Decimal) : value.neg.hundredths = -value.hundredths := by
  simp only [hundredths, mantissa_neg, scale_neg, Int.neg_mul]

/-- A zero has no hundredths, at any scale. -/
theorem hundredths_eq_zero {value : Decimal} (empty : value.isZero = true) :
    value.hundredths = 0 := by
  have none : value.coefficient = 0 := by simpa [isZero] using empty
  simp [hundredths, mantissa, none]

/-! ## Fitting a number into the range -/

/-- A decimal that is made has the mantissa and the scale it was made from. -/
theorem mantissa_ofMantissa? {mantissa : Int} {scale : Nat} {value : Decimal}
    (made : ofMantissa? mantissa scale = some value) :
    value.mantissa = mantissa ∧ value.scale = scale := by
  unfold ofMantissa? at made
  split at made
  · injection made with made
    subst made
    refine ⟨?_, rfl⟩
    simp only [Decimal.mantissa, decide_eq_true_eq]
    split <;> omega
  · cases made

/-- A number that is in range is kept as it is. -/
theorem fit?_of_le {mantissa : Int} {scale : Nat} (fits : mantissa.natAbs ≤ maxCoefficient)
    (few : scale ≤ maxScale) :
    ∃ value, fit? mantissa scale = some value ∧ value.mantissa = mantissa ∧
    value.scale = scale := by
  have made : ofMantissa? mantissa scale =
      some ⟨mantissa < 0, mantissa.natAbs, scale, fits, few⟩ := dif_pos ⟨fits, few⟩
  refine ⟨_, ?_, mantissa_ofMantissa? made⟩
  unfold fit?
  rw [List.range_succ_eq_map, List.findSome?_cons]
  simp [made]

/-- Whatever places are dropped, the result is one of the roundings of the number. -/
theorem fit?_rounds {mantissa : Int} {scale : Nat} {value : Decimal}
    (fitted : fit? mantissa scale = some value) :
    ∃ dropped, value.mantissa = roundQuotient .toEven mantissa (tenTo dropped) ∧
      value.scale ≤ scale := by
  obtain ⟨dropped, member, made⟩ := List.exists_of_findSome?_eq_some fitted
  obtain ⟨mantissaEq, scaleEq⟩ := mantissa_ofMantissa? made
  exact ⟨dropped, mantissaEq, by omega⟩

/-- A number that is small enough without its places fits once they are dropped. -/
theorem fit?_isSome {mantissa : Int} {scale : Nat}
    (fits : mantissa.natAbs ≤ maxCoefficient * tenTo scale) : (fit? mantissa scale).isSome := by
  unfold fit?
  rw [List.isSome_findSome?, List.any_eq_true]
  refine ⟨scale, by simp, ?_⟩
  have rounded : roundDiv .toEven mantissa.natAbs (tenTo scale) ≤ maxCoefficient := by
    have positive := tenTo_pos scale
    by_cases full : mantissa.natAbs = maxCoefficient * tenTo scale
    · rw [full, roundDiv, Nat.mul_mod_left, Nat.mul_div_cancel _ positive]
      simp [positive]
    · have below : mantissa.natAbs / tenTo scale < maxCoefficient :=
        (Nat.div_lt_iff_lt_mul positive).mpr (by omega)
      have next := roundDiv_le_succ .toEven mantissa.natAbs (tenTo scale)
      omega
  unfold ofMantissa?
  rw [dif_pos ⟨by rwa [natAbs_roundQuotient], by omega⟩]
  rfl

/-! ## Sums -/

/-- Both numbers written with the places of the longer one. -/
def aligned (left right : Decimal) : Int :=
  left.mantissa * tenTo (max left.scale right.scale - left.scale) +
    right.mantissa * tenTo (max left.scale right.scale - right.scale)

/-- Adding zero returns the other operand at its own scale; all else is aligned, added and fitted.
-/
theorem add?_cases (left right : Decimal) :
    (left.isZero = true ∧ left.add? right = some right) ∨
      (right.isZero = true ∧ left.add? right = some left) ∨
      left.add? right = fit? (left.aligned right) (max left.scale right.scale) := by
  unfold add?
  by_cases leftZero : left.isZero
  · exact .inl ⟨leftZero, if_pos leftZero⟩
  · by_cases rightZero : right.isZero
    · exact .inr (.inl ⟨rightZero, by rw [if_neg leftZero, if_pos rightZero]⟩)
    · exact .inr (.inr (by rw [if_neg leftZero, if_neg rightZero]; rfl))

/-- A number that loses the places behind the longer one's is worth the same. -/
theorem scale_up {scale common : Nat} (within : scale ≤ common) (few : common ≤ Money.places) :
    tenTo (Money.places - scale) = tenTo (common - scale) * tenTo (Money.places - common) := by
  rw [← tenTo_add]
  congr 1
  omega

/-- Aligned operands of two places at most add up in hundredths. -/
theorem aligned_hundredths (left right : Decimal) (leftFew : left.scale ≤ Money.places)
    (rightFew : right.scale ≤ Money.places) :
    left.aligned right * tenTo (Money.places - max left.scale right.scale) =
      left.hundredths + right.hundredths := by
  have common : max left.scale right.scale ≤ Money.places := Nat.max_le.mpr ⟨leftFew, rightFew⟩
  have leftUp := scale_up (Nat.le_max_left left.scale right.scale) common
  have rightUp := scale_up (Nat.le_max_right left.scale right.scale) common
  simp only [hundredths, aligned, leftUp, rightUp]
  push_cast
  grind

/-- A sum of at most the largest coefficient in hundredths is exact. -/
theorem add?_exact {left right : Decimal} (leftFew : left.scale ≤ Money.places)
    (rightFew : right.scale ≤ Money.places)
    (fits : (left.hundredths + right.hundredths).natAbs ≤ maxCoefficient) :
    ∃ sum, left.add? right = some sum ∧ sum.scale ≤ Money.places ∧
      sum.hundredths = left.hundredths + right.hundredths := by
  have common : max left.scale right.scale ≤ Money.places := Nat.max_le.mpr ⟨leftFew, rightFew⟩
  have exactly := aligned_hundredths left right leftFew rightFew
  rcases add?_cases left right with ⟨empty, sum⟩ | ⟨empty, sum⟩ | sum
  · exact ⟨right, sum, rightFew, by rw [hundredths_eq_zero empty]; omega⟩
  · exact ⟨left, sum, leftFew, by rw [hundredths_eq_zero empty]; omega⟩
  · have shorter : (left.aligned right).natAbs ≤ maxCoefficient := by
      refine Nat.le_trans ?_ fits
      rw [← exactly, Int.natAbs_mul, Int.natAbs_natCast]
      exact Nat.le_mul_of_pos_right _ (tenTo_pos _)
    have few : max left.scale right.scale ≤ maxScale := Nat.le_trans common (by decide)
    obtain ⟨value, fitted, mantissaEq, scaleEq⟩ := fit?_of_le shorter few
    refine ⟨value, by rw [sum, fitted], by rw [scaleEq]; exact common, ?_⟩
    rw [← exactly, hundredths, mantissaEq, scaleEq]

/-- A sum of operands of two places at most has two places at most. -/
theorem scale_add? {left right sum : Decimal} (leftFew : left.scale ≤ Money.places)
    (rightFew : right.scale ≤ Money.places) (added : left.add? right = some sum) :
    sum.scale ≤ Money.places := by
  rcases add?_cases left right with ⟨_, same⟩ | ⟨_, same⟩ | same <;> rw [same] at added
  · cases added
    exact rightFew
  · cases added
    exact leftFew
  · obtain ⟨_, _, few⟩ := fit?_rounds added
    exact Nat.le_trans few (Nat.max_le.mpr ⟨leftFew, rightFew⟩)

/-- Rounding never moves a sum below zero. -/
theorem hundredths_add?_nonneg {left right sum : Decimal} (leftFew : left.scale ≤ Money.places)
    (rightFew : right.scale ≤ Money.places) (added : left.add? right = some sum)
    (nonneg : 0 ≤ left.hundredths + right.hundredths) : 0 ≤ sum.hundredths := by
  have exactly := aligned_hundredths left right leftFew rightFew
  rcases add?_cases left right with ⟨empty, same⟩ | ⟨empty, same⟩ | same <;> rw [same] at added
  · cases added
    rwa [hundredths_eq_zero empty, Int.zero_add] at nonneg
  · cases added
    rwa [hundredths_eq_zero empty, Int.add_zero] at nonneg
  · obtain ⟨dropped, mantissaEq, _⟩ := fit?_rounds added
    have positive : (0 : Int) < tenTo (Money.places - max left.scale right.scale) := by
      exact_mod_cast tenTo_pos _
    have alignedNonneg : 0 ≤ left.aligned right := by
      rw [← exactly] at nonneg
      exact Int.nonneg_of_mul_nonneg_left nonneg positive
    have rounded : 0 ≤ sum.mantissa := by
      rw [mantissaEq, roundQuotient, if_neg (by omega)]
      exact Int.natCast_nonneg _
    exact Int.mul_nonneg rounded (Int.natCast_nonneg _)

/-- Places added to a number never carry it past the largest coefficient with all places. -/
theorem natAbs_mantissa_mul_le (value : Decimal) {common : Nat} (within : value.scale ≤ common) :
    (value.mantissa * tenTo (common - value.scale)).natAbs ≤ maxCoefficient * tenTo common := by
  rw [Int.natAbs_mul, natAbs_mantissa, Int.natAbs_natCast]
  have split : tenTo common = tenTo value.scale * tenTo (common - value.scale) := by
    rw [← tenTo_add]
    congr 1
    omega
  rw [split, ← Nat.mul_assoc]
  refine Nat.mul_le_mul_right _ (Nat.le_trans value.coefficient_le ?_)
  exact Nat.le_mul_of_pos_right _ (tenTo_pos _)

/-- The difference of two numbers that are not negative exists: it is no larger than either. -/
theorem sub?_isSome {left right : Decimal} (leftNonneg : 0 ≤ left.mantissa)
    (rightNonneg : 0 ≤ right.mantissa) : (left.sub? right).isSome := by
  rcases add?_cases left right.neg with ⟨_, same⟩ | ⟨_, same⟩ | same <;>
    rw [sub?, same]
  · rfl
  · rfl
  · apply fit?_isSome
    have leftBound := natAbs_mantissa_mul_le left (Nat.le_max_left left.scale right.neg.scale)
    have rightBound := natAbs_mantissa_mul_le right (Nat.le_max_right left.scale right.scale)
    simp only [aligned, mantissa_neg, scale_neg, Int.neg_mul] at leftBound rightBound ⊢
    have leftSign : 0 ≤ left.mantissa * tenTo (max left.scale right.scale - left.scale) :=
      Int.mul_nonneg leftNonneg (Int.natCast_nonneg _)
    have rightSign : 0 ≤ right.mantissa * tenTo (max left.scale right.scale - right.scale) :=
      Int.mul_nonneg rightNonneg (Int.natCast_nonneg _)
    omega

end Decimal

namespace Money

/-- The most cents that money is sure to be exact with. -/
abbrev maxCents : Int := Decimal.maxCoefficient

/-- A decimal of two places at most keeps its hundredths as cents. -/
theorem cents_ofDecimal {value : Decimal} (few : value.scale ≤ places) :
    (ofDecimal value).cents = value.hundredths :=
  Decimal.hundredths_quantize value few

/-- An amount that is not negative has no negative mantissa. -/
theorem mantissa_nonneg {money : Money} (nonneg : 0 ≤ money.cents) : 0 ≤ money.value.mantissa := by
  have positive : (0 : Int) < tenTo (places - money.value.scale) := by exact_mod_cast tenTo_pos _
  exact Int.nonneg_of_mul_nonneg_left nonneg positive

/-- A sum of at most `maxCents` is exact. -/
theorem add_exact {left right : Money} (fits : (left.cents + right.cents).natAbs ≤ maxCents) :
    ∃ sum, left.add right = .ok sum ∧ sum.cents = left.cents + right.cents := by
  obtain ⟨sum, added, few, worth⟩ :=
    Decimal.add?_exact left.places_le right.places_le (by exact_mod_cast fits)
  refine ⟨ofDecimal sum, by simp only [add, added], ?_⟩
  rw [cents_ofDecimal few]
  exact worth

/-- A difference of at most `maxCents` is exact. -/
theorem sub_exact {left right : Money} (fits : (left.cents - right.cents).natAbs ≤ maxCents) :
    ∃ difference, left.sub right = .ok difference ∧
      difference.cents = left.cents - right.cents := by
  have worthNeg : left.value.hundredths + right.value.neg.hundredths =
      left.cents - right.cents := by
    rw [Decimal.hundredths_neg]
    rfl
  have negFew : right.value.neg.scale ≤ places := by
    rw [Decimal.scale_neg]
    exact right.places_le
  obtain ⟨difference, subtracted, few, worth⟩ :=
    Decimal.add?_exact left.places_le negFew (by rw [worthNeg]; exact_mod_cast fits)
  refine ⟨ofDecimal difference, by simp only [sub, Decimal.sub?, subtracted], ?_⟩
  rw [cents_ofDecimal few, worth, worthNeg]

/-- A sum that fits is exact in cents. -/
theorem cents_of_add {left right sum : Money} (added : left.add right = .ok sum)
    (fits : (left.cents + right.cents).natAbs ≤ maxCents) :
    sum.cents = left.cents + right.cents := by
  obtain ⟨exactly, addedToo, worth⟩ := add_exact fits
  cases added.symm.trans addedToo
  exact worth

/-- A difference that fits is exact in cents. -/
theorem cents_of_sub {left right difference : Money} (subtracted : left.sub right = .ok difference)
    (fits : (left.cents - right.cents).natAbs ≤ maxCents) :
    difference.cents = left.cents - right.cents := by
  obtain ⟨exactly, subtractedToo, worth⟩ := sub_exact fits
  cases subtracted.symm.trans subtractedToo
  exact worth

/-- However much is lost to rounding, a sum of money that is not negative is not negative. -/
theorem add_nonneg {left right sum : Money} (added : left.add right = .ok sum)
    (leftNonneg : 0 ≤ left.cents) (rightNonneg : 0 ≤ right.cents) : 0 ≤ sum.cents := by
  unfold add at added
  split at added
  · next value valueEq =>
    cases added
    rw [cents_ofDecimal (Decimal.scale_add? left.places_le right.places_le valueEq)]
    exact Decimal.hundredths_add?_nonneg left.places_le right.places_le valueEq
      (Int.add_nonneg leftNonneg rightNonneg)
  · cases added

/-- Taking away no more than there is leaves nothing negative. -/
theorem sub_nonneg {left right difference : Money} (subtracted : left.sub right = .ok difference)
    (enough : right.cents ≤ left.cents) : 0 ≤ difference.cents := by
  unfold sub Decimal.sub? at subtracted
  have few : right.value.neg.scale ≤ places := by
    rw [Decimal.scale_neg]
    exact right.places_le
  split at subtracted
  · next value valueEq =>
    cases subtracted
    rw [cents_ofDecimal (Decimal.scale_add? left.places_le few valueEq)]
    refine Decimal.hundredths_add?_nonneg left.places_le few valueEq ?_
    rw [Decimal.hundredths_neg]
    exact Int.sub_nonneg_of_le enough
  · cases subtracted

/-- A difference of money that is not negative never overflows. -/
theorem sub_isOk {left right : Money} (leftNonneg : 0 ≤ left.cents)
    (rightNonneg : 0 ≤ right.cents) :
    ∃ difference, left.sub right = .ok difference := by
  have exists? := Decimal.sub?_isSome (mantissa_nonneg leftNonneg) (mantissa_nonneg rightNonneg)
  obtain ⟨difference, subtracted⟩ := Option.isSome_iff_exists.mp exists?
  exact ⟨ofDecimal difference, by simp only [sub, subtracted]⟩

@[simp] theorem cents_zero : zero.cents = 0 := rfl

end Money

end Prepaid
