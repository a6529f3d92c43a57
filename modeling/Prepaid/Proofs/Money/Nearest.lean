import Mathlib.Algebra.Order.Field.Basic
import Mathlib.Tactic.Linarith
import Mathlib.Tactic.Ring
import Prepaid.Proofs.Money.Text
import Prepaid.Proofs.Money.Worth
import Prepaid.Rejection

/-!
# The nearest hundredth

Quantizing takes a number to the hundredth that is nearest to it, and of two that are
equally near to the one farther from zero. That it keeps the order and turns with the
sign follows from this alone. An amount is accepted from half a hundredth on, where it
is rounded up.
-/

namespace Prepaid

/-- An integer nearest to a quotient. Of two that are equally near it is the one farther from
zero. -/
structure NearestAway (m : Int) (d : Nat) (q : Int) : Prop where
  above : 2 * m ≤ 2 * (q * d) + d
  below : 2 * (q * d) ≤ 2 * m + d
  negative : 2 * m = 2 * (q * d) + d → m < 0
  positive : 2 * (q * d) = 2 * m + d → 0 < m

/-- Rounding a quotient of naturals finds the nearest whole number, a tie going up. -/
theorem roundDiv_nearestAway (n : Nat) {d : Nat} (positive : 0 < d) :
    NearestAway n d (roundDiv .awayFromZero n d) := by
  have split := Nat.div_add_mod' n d
  have small := Nat.mod_lt n positive
  have rounded : roundDiv .awayFromZero n d = if 2 * (n % d) < d then n / d else n / d + 1 := by
    simp [roundDiv]
  rw [rounded]
  generalize n / d = q at split
  generalize n % d = r at split small
  have whole : ((q * d : Nat) : Int) = (q : Int) * d := Int.natCast_mul q d
  have next : ((q + 1 : Nat) : Int) * d = (q : Int) * d + d := by
    rw [Int.natCast_succ, Int.add_mul, Int.one_mul]
  split
  · exact ⟨by omega, by omega, by omega, by omega⟩
  · exact ⟨by omega, by omega, by omega, by omega⟩

namespace NearestAway

variable {m q : Int} {d : Nat}

/-- Nearness with ties away from zero is the same on both sides of zero. -/
theorem neg (nearest : NearestAway m d q) : NearestAway (-m) d (-q) := by
  have turned : -q * (d : Int) = -(q * d) := Int.neg_mul q d
  obtain ⟨above, below, negative, positive⟩ := nearest
  exact ⟨by omega, by omega, by omega, by omega⟩

/-- Where the quotient lies, in units. -/
theorem bounds (positive : 0 < d) (nearest : NearestAway m d q) :
    (m / d : ℚ) ≤ q + 1 / 2 ∧ q - 1 / 2 ≤ (m / d : ℚ) ∧
      ((m / d : ℚ) = q + 1 / 2 → (m / d : ℚ) < 0) ∧
      ((m / d : ℚ) = q - 1 / 2 → 0 < (m / d : ℚ)) := by
  have unit : (0 : ℚ) < d := by exact_mod_cast positive
  have above : (2 * m : ℚ) ≤ 2 * (q * d) + d := by exact_mod_cast nearest.above
  have below : (2 * (q * d) : ℚ) ≤ 2 * m + d := by exact_mod_cast nearest.below
  refine ⟨?_, ?_, fun half => ?_, fun half => ?_⟩
  · rw [div_le_iff₀ unit]
    linarith
  · rw [le_div_iff₀ unit]
    linarith
  · rw [div_eq_iff unit.ne'] at half
    have tie : (2 * m : ℚ) = 2 * (q * d) + d := by linarith
    have less : m < 0 := nearest.negative (by exact_mod_cast tie)
    exact div_neg_of_neg_of_pos (by exact_mod_cast less) unit
  · rw [div_eq_iff unit.ne'] at half
    have tie : (2 * (q * d) : ℚ) = 2 * m + d := by linarith
    have more : 0 < m := nearest.positive (by exact_mod_cast tie)
    exact div_pos (by exact_mod_cast more) unit

end NearestAway

/-- Rounding a signed quotient finds the nearest whole number, a tie going away from zero. -/
theorem roundQuotient_nearestAway (m : Int) {d : Nat} (positive : 0 < d) :
    NearestAway m d (roundQuotient .awayFromZero m d) := by
  have rounded := roundDiv_nearestAway m.natAbs positive
  unfold roundQuotient
  split
  · next negative =>
    have turned := rounded.neg
    rwa [show -(m.natAbs : Int) = m by omega] at turned
  · next nonneg => rwa [Int.natAbs_of_nonneg (Int.not_lt.mp nonneg)] at rounded

/-- A hundredth that is nearest to a number. Of two that are equally near it is the one farther from
zero. -/
structure NearestHundredth (exact rounded : ℚ) : Prop where
  multiple : ∃ cents : Int, rounded = cents / 100
  nearest : ∀ cents : Int, |exact - rounded| ≤ |exact - cents / 100|
  away : ∀ cents : Int, |exact - cents / 100| = |exact - rounded| → |(cents / 100 : ℚ)| ≤ |rounded|

namespace NearestHundredth

variable {exact less more rounded first second : ℚ}

/-- The nearest hundredth of the opposite is the opposite. -/
theorem neg (nearest : NearestHundredth exact rounded) : NearestHundredth (-exact) (-rounded) := by
  obtain ⟨⟨whole, rfl⟩, near, away⟩ := nearest
  have mirrored (cents : Int) : |-exact - cents / 100| = |exact - (-cents : Int) / 100| := by
    rw [Int.cast_neg, ← abs_neg]
    congr 1
    ring
  have same : |-exact - -(whole / 100 : ℚ)| = |exact - whole / 100| := by
    rw [← abs_neg]
    congr 1
    ring
  refine ⟨⟨-whole, by rw [Int.cast_neg, neg_div]⟩, fun cents => ?_, fun cents even => ?_⟩
  · rw [same, mirrored]
    exact near (-cents)
  · rw [same, mirrored] at even
    have most := away (-cents) even
    rwa [Int.cast_neg, neg_div, abs_neg, ← abs_neg (whole / 100 : ℚ)] at most

/-- A hundredth is nearest to itself. -/
theorem self (cents : Int) : NearestHundredth (cents / 100) (cents / 100) where
  multiple := ⟨cents, rfl⟩
  nearest other := by
    rw [sub_self, abs_zero]
    exact abs_nonneg _
  away other even := by
    rw [sub_self, abs_zero, abs_eq_zero, sub_eq_zero] at even
    rw [even]

/-- A number is no farther from the larger of two numbers exactly if it is not below their
middle. -/
theorem closer_iff (apart : first < second) : |exact - second| ≤ |exact - first| ↔
    first + second ≤ 2 * exact := by
  rw [← sq_le_sq]
  constructor
  · intro closer
    nlinarith
  · intro middle
    nlinarith

/-- The nearest hundredth of a larger number is not smaller. -/
theorem mono (small : NearestHundredth less first) (large : NearestHundredth more second)
    (le : less ≤ more) :
    first ≤ second := by
  refine not_lt.mp fun apart => ?_
  obtain ⟨⟨firstCents, rfl⟩, firstNear, firstAway⟩ := small
  obtain ⟨⟨secondCents, rfl⟩, secondNear, secondAway⟩ := large
  have above := (closer_iff apart).mp (firstNear secondCents)
  have below := secondNear firstCents
  have beyond : 2 * more ≤ secondCents / 100 + firstCents / 100 := by
    rw [← abs_neg, ← abs_neg (more - _), neg_sub, neg_sub] at below
    by_contra
    nlinarith [sq_le_sq.mpr below]
  -- Both numbers are the middle of the same two hundredths, which are then equally far from zero.
  obtain rfl : less = more := by linarith
  have even : |less - secondCents / 100| = |less - firstCents / 100| :=
    le_antisymm below (firstNear secondCents)
  have size : |(firstCents / 100 : ℚ)| = |(secondCents / 100 : ℚ)| :=
    le_antisymm (secondAway firstCents even.symm) (firstAway secondCents even)
  have opposite : (firstCents / 100 : ℚ) = -(secondCents / 100) :=
    (abs_eq_abs.mp size).resolve_left apart.ne'
  have zero : less = 0 := by linarith
  have none := firstNear 0
  rw [zero, Int.cast_zero, zero_div, sub_zero, abs_zero, zero_sub, abs_neg] at none
  have nothing : (firstCents / 100 : ℚ) = 0 := abs_nonpos_iff.mp none
  linarith

/-- A number has one nearest hundredth. -/
theorem unique (one : NearestHundredth exact first) (other : NearestHundredth exact second) :
    first = second :=
  le_antisymm (one.mono other (le_refl exact)) (other.mono one (le_refl exact))

end NearestHundredth

/-- Counted in hundredths, the nearest hundredth is the nearest integer. -/
theorem NearestAway.hundredth {m q : Int} {d : Nat} (positive : 0 < d) (nearest : NearestAway m d q)
    {exact : ℚ} (counts : exact * 100 = m / d) : NearestHundredth exact (q / 100) := by
  obtain ⟨above, below, negative, up⟩ := nearest.bounds positive
  rw [← counts] at above below negative up
  have distance (cents : Int) : |exact - cents / 100| = |exact * 100 - cents| / 100 := by
    have scaled : exact - cents / 100 = (exact * 100 - cents) / 100 := by ring
    rw [scaled, abs_div, abs_of_pos (show (0 : ℚ) < 100 by norm_num)]
  have near : |exact * 100 - q| ≤ 1 / 2 := abs_le.mpr ⟨by linarith, by linarith⟩
  -- Any other integer is at least one unit away from the nearest one.
  have others (cents : Int) : cents = q ∨
      1 / 2 ≤ |exact * 100 - cents| ∧
      (|exact * 100 - cents| = |exact * 100 - q| → |cents| ≤ |q|) := by
    rcases lt_trichotomy cents q with less | same | more
    · have apart : (cents : ℚ) + 1 ≤ q := by exact_mod_cast less
      have far : |exact * 100 - cents| = exact * 100 - cents := abs_of_nonneg (by linarith)
      refine .inr ⟨by linarith, fun even => ?_⟩
      have half : exact * 100 = q - 1 / 2 := by linarith
      have positive : 0 < q := by
        have more : (0 : ℚ) < q := by linarith [up half]
        exact_mod_cast more
      have within : q - 1 ≤ cents := by
        have least : (q : ℚ) - 1 ≤ cents := by linarith
        exact_mod_cast least
      rw [abs_of_pos positive, abs_of_nonneg (by omega)]
      omega
    · exact .inl same
    · have apart : (q : ℚ) + 1 ≤ cents := by exact_mod_cast more
      have far : |exact * 100 - cents| = -(exact * 100 - cents) := abs_of_nonpos (by linarith)
      refine .inr ⟨by linarith, fun even => ?_⟩
      have half : exact * 100 = q + 1 / 2 := by linarith
      have negative : q < 0 := by
        have less : (q : ℚ) < 0 := by linarith [negative half]
        exact_mod_cast less
      have within : cents ≤ q + 1 := by
        have most : (cents : ℚ) ≤ q + 1 := by linarith
        exact_mod_cast most
      rw [abs_of_neg negative, abs_of_nonpos (by omega)]
      omega
  refine ⟨⟨q, rfl⟩, fun cents => ?_, fun cents even => ?_⟩
  · rw [distance, distance]
    rcases others cents with rfl | ⟨far, _⟩
    · exact le_refl _
    · linarith
  · rw [distance, distance, div_left_inj' (by norm_num)] at even
    rw [abs_div, abs_div]
    rcases others cents with rfl | ⟨_, closer⟩
    · exact le_refl _
    · have most : |(cents : ℚ)| ≤ |(q : ℚ)| := by exact_mod_cast closer even
      exact div_le_div_of_nonneg_right most (abs_nonneg _)

namespace Decimal

variable {value left right : Decimal}

/-- A decimal of at most two places is worth its hundredths. -/
theorem worth_of_few (few : value.scale ≤ Money.places) : value.worth = value.hundredths / 100 := by
  have split : tenTo Money.places = tenTo (Money.places - value.scale) * tenTo value.scale := by
    rw [← tenTo_add]
    congr 1
    omega
  have hundred : (100 : ℚ) = tenTo (Money.places - value.scale) * tenTo value.scale := by
    exact_mod_cast split
  rw [worth, hundredths, hundred, Int.cast_mul, Int.cast_natCast, mul_comm,
    mul_div_mul_left _ _ (tenTo_cast_ne_zero _)]

/-- A quantized decimal is worth its hundredths. -/
@[simp] theorem worth_quantize (value : Decimal) :
    value.quantize.worth = value.quantize.hundredths / 100 :=
  worth_of_few value.scale_quantize_le

/-- In hundredths, quantizing is rounding to the nearest integer. -/
theorem nearestAway_quantize (value : Decimal) :
    NearestAway (value.mantissa * tenTo Money.places)
      (tenTo value.scale) value.quantize.hundredths := by
  rw [hundredths_quantize_eq]
  exact roundQuotient_nearestAway _ (tenTo_pos _)

/-- A worth in cents is a quotient of integers. -/
theorem worth_mul_hundred (value : Decimal) :
    value.worth * 100 = (value.mantissa * tenTo Money.places : Int) / tenTo value.scale := by
  have hundred : (tenTo Money.places : ℚ) = 100 := by norm_num [tenTo]
  rw [worth, Int.cast_mul, Int.cast_natCast, hundred]
  ring

/-- Quantizing takes a number to the nearest hundredth. -/
theorem quantize_nearest (value : Decimal) : NearestHundredth value.worth value.quantize.worth := by
  rw [worth_quantize]
  exact value.nearestAway_quantize.hundredth (tenTo_pos _) value.worth_mul_hundred

/-- Negating negates the worth. -/
theorem worth_neg (value : Decimal) : value.neg.worth = -value.worth := by
  rw [worth, worth, mantissa_neg, scale_neg, Int.cast_neg, neg_div]

/-- Quantizing turns with the sign of the number. -/
theorem quantize_odd (value : Decimal) : value.neg.quantize.worth = -value.quantize.worth := by
  have mirrored := value.quantize_nearest.neg
  rw [← worth_neg] at mirrored
  exact value.neg.quantize_nearest.unique mirrored

/-- Quantizing keeps the order of two numbers. -/
theorem quantize_mono (le : left.worth ≤ right.worth) :
    left.quantize.worth ≤ right.quantize.worth :=
  left.quantize_nearest.mono right.quantize_nearest le

/-- Places are added until they are all there, or the coefficient has no room for another one. -/
theorem scale_widen (steps : Nat) (value : Decimal) (few : value.scale + steps ≤ maxScale) :
    (value.widen steps).scale = value.scale + steps ∨
    maxCoefficient < (value.widen steps).coefficient * 10 := by
  induction steps generalizing value with
  | zero => exact .inl rfl
  | succ steps ih =>
    unfold widen
    split
    · next fits =>
      have wider := ih ⟨value.negative, value.coefficient * 10, value.scale + 1, fits.1, fits.2⟩
        (by simp only; omega)
      rwa [show value.scale + (steps + 1) = value.scale + 1 + steps by omega]
    · next full => exact .inr (by omega)

/-- Widening reaches the places, or stops where the coefficient has no room for one more. -/
theorem scale_widenTo {places : Nat} (few : value.scale ≤ places) (most : places ≤ maxScale) :
    (value.widenTo places).scale = places ∨
    maxCoefficient < (value.widenTo places).coefficient * 10 := by
  have wider := scale_widen (places - value.scale) value (by omega)
  rwa [show value.scale + (places - value.scale) = places by omega] at wider

/-- A bound on an amount is a bound on its cents. -/
theorem abs_hundredths_le_iff {cents : Int} {most : Nat} :
    |(cents / 100 : ℚ)| ≤ most / 100 ↔ cents.natAbs ≤ most := by
  rw [abs_div, abs_of_pos (show (0 : ℚ) < 100 by norm_num),
    div_le_div_iff_of_pos_right (by norm_num), ← Int.cast_abs, Int.abs_eq_natAbs]
  exact_mod_cast Iff.rfl

/-- What is quantized has two places exactly if it is small enough for them. -/
theorem scale_quantize_iff (value : Decimal) :
    value.quantize.scale = Money.places ↔ |value.quantize.worth| ≤ maxCoefficient / 100 := by
  have room : value.quantize.scale = Money.places ∨
      maxCoefficient < value.quantize.coefficient * 10 := by
    simp only [quantize]
    split
    · exact scale_widenTo (Nat.zero_le _) (by decide)
    · exact scale_widenTo (scale_roundTo_le ..) (by decide)
  have fits : |value.quantize.worth| ≤ maxCoefficient / 100 ↔ value.quantize.hundredths.natAbs ≤
      maxCoefficient := by
    rw [worth_quantize]
    exact_mod_cast abs_hundredths_le_iff
  rw [fits, hundredths, Int.natAbs_mul, natAbs_mantissa, Int.natAbs_natCast]
  constructor
  · intro whole
    rw [whole, Nat.sub_self, tenTo_zero, Nat.mul_one]
    exact value.quantize.coefficient_le
  · intro small
    by_contra fewer
    have full := room.resolve_left fewer
    have few := value.scale_quantize_le
    have ten : 10 ≤ tenTo (Money.places - value.quantize.scale) := ten_le_tenTo (by omega)
    have wider := Nat.mul_le_mul_left value.quantize.coefficient ten
    omega

/-- What is small enough for two places is still so when it is quantized. -/
theorem abs_quantize_le {cents : Nat}
    (small : |value.worth| ≤ cents / 100) : |value.quantize.worth| ≤ cents / 100 := by
  have above := NearestHundredth.self cents
  have below := NearestHundredth.self (-cents)
  push_cast at above below
  obtain ⟨least, most⟩ := abs_le.mp small
  rw [← neg_div] at least
  refine abs_le.mpr ⟨?_, value.quantize_nearest.mono above most⟩
  rw [← neg_div]
  exact below.mono value.quantize_nearest least

/-- A positive number of cents is reached from half a cent below it. -/
theorem le_quantize_iff (value : Decimal) {cents : Int} (positive : 0 < cents) :
    cents ≤ value.quantize.hundredths ↔ (cents / 100 : ℚ) - 1 / 200 ≤ value.worth := by
  obtain ⟨above, below, negative, _⟩ := value.nearestAway_quantize.bounds (tenTo_pos _)
  rw [← worth_mul_hundred] at above below negative
  have one : (1 : ℚ) ≤ cents := by exact_mod_cast positive
  constructor
  · intro reached
    have most : (cents : ℚ) ≤ value.quantize.hundredths := by exact_mod_cast reached
    linarith
  · intro enough
    have next : cents ≤ value.quantize.hundredths + 1 := by
      have most : (cents : ℚ) ≤ value.quantize.hundredths + 1 := by linarith
      exact_mod_cast most
    rcases Int.lt_or_eq_of_le next with less | rfl
    · exact Int.lt_add_one_iff.mp less
    · -- Halfway to a positive number of cents, the number is not rounded towards zero.
      push_cast at enough one
      have half := negative (by linarith)
      linarith

end Decimal

/-- An amount is worth its cents. -/
theorem Money.worth_eq_cents (money : Money) : money.value.worth = money.cents / 100 :=
  Decimal.worth_of_few money.places_le

/-- Money compares as what it is worth does. -/
theorem Money.lt_iff_worth {left right : Money} :
    left < right ↔ left.value.worth < right.value.worth := by
  rw [worth_eq_cents, worth_eq_cents, div_lt_div_iff_of_pos_right (by norm_num)]
  exact_mod_cast Iff.rfl

namespace Amount

/-- A decimal is an amount's exactly if it is rounded to the amount's money. -/
theorem ofDecimal_eq_ok {value : Decimal} {amount : Amount} :
    ofDecimal value = .ok amount ↔ Money.ofDecimal value = amount.money := by
  have own := amount.positive
  unfold ofDecimal ofDecimal?
  by_cases positive : 0 < (Money.ofDecimal value).cents
  · rw [dif_pos positive]
    obtain ⟨money, _⟩ := amount
    simp only [Except.ok.injEq, Amount.mk.injEq]
  · rw [dif_neg positive]
    simp only [reduceCtorEq, false_iff]
    rintro same
    rw [same] at positive
    exact positive own

/-- A number is accepted as an amount from half a cent on. -/
theorem exists_ofDecimal_iff {value : Decimal} :
    (∃ amount, ofDecimal value = .ok amount) ↔ 1 / 200 ≤ value.worth := by
  have reached := value.le_quantize_iff Int.one_pos
  norm_num at reached
  rw [← reached]
  simp only [ofDecimal_eq_ok]
  constructor
  · rintro ⟨amount, same⟩
    have positive := amount.positive
    rw [← same] at positive
    exact positive
  · intro positive
    exact ⟨⟨Money.ofDecimal value, positive⟩, rfl⟩

end Amount

end Prepaid
