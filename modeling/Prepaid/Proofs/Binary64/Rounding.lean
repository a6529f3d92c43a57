import Mathlib.Algebra.Order.Field.Power
import Mathlib.Data.Rat.Cast.Order
import Mathlib.Tactic.FieldSimp
import Mathlib.Tactic.Linarith
import Mathlib.Tactic.NormNum
import Mathlib.Tactic.Positivity
import Mathlib.Tactic.Ring
import Prepaid.Binary64.Shortest
import Prepaid.Proofs.Money.Rounded

/-!
# Rounding to binary64

A quotient that is neither too small nor too large becomes a number of 53 significant
bits. The quotient is among the reals that round to this number: `Binary64.Covers` says
which these are.
-/

namespace Prepaid

/-! ## Powers as rationals -/

/-- A table's power of ten as a rational. -/
theorem cast_tenTo (places : Nat) : (tenTo places : ℚ) = 10 ^ places := by
  simp [tenTo]

/-- A table's power of two as a rational. -/
theorem cast_twoTo (places : Nat) : (twoTo places : ℚ) = 2 ^ places := by
  simp [twoTo]

/-- A power whose exponent has a sign is the quotient of two that have none. -/
theorem zpow_eq_toNat_div {base : ℚ} (nonzero : base ≠ 0) (exponent : Int) :
    base ^ exponent.toNat / base ^ (-exponent).toNat = base ^ exponent := by
  rw [← zpow_natCast, ← zpow_natCast, ← zpow_sub₀ nonzero]
  congr 1
  omega

/-- One of the two parts of an exponent is zero, so the quotient of their powers is the power of
ten. -/
theorem tenTo_div (exponent : Int) :
    (tenTo exponent.toNat : ℚ) / tenTo (-exponent).toNat = 10 ^ exponent := by
  rw [cast_tenTo, cast_tenTo, zpow_eq_toNat_div (by norm_num)]

/-- One of the two parts of an exponent is zero, so the quotient of their powers is the power of
two. -/
theorem twoTo_div (exponent : Int) :
    (twoTo exponent.toNat : ℚ) / twoTo (-exponent).toNat = 2 ^ exponent := by
  rw [cast_twoTo, cast_twoTo, zpow_eq_toNat_div (by norm_num)]

/-- A power of ten is positive as a rational. -/
theorem cast_tenTo_pos (places : Nat) : (0 : ℚ) < tenTo places :=
  Nat.cast_pos.mpr (tenTo_pos places)

/-- A power of two is positive as a rational. -/
theorem cast_twoTo_pos (places : Nat) : (0 : ℚ) < twoTo places :=
  Nat.cast_pos.mpr (twoTo_pos places)

/-- A power of ten with any exponent is positive. -/
theorem ten_zpow_pos (exponent : Int) : (0 : ℚ) < 10 ^ exponent :=
  zpow_pos (by norm_num) exponent

/-- A power of two with any exponent is positive. -/
theorem two_zpow_pos (exponent : Int) : (0 : ℚ) < 2 ^ exponent :=
  zpow_pos (by norm_num) exponent

namespace Binary64

/-! ## Worths -/

/-- The number has all its significant bits. -/
def IsNormal (value : Binary64) : Prop :=
  2 ^ 52 ≤ value.significand ∧ value.significand < 2 ^ 53

/-- A normal value is not zero. -/
theorem IsNormal.significand_pos {value : Binary64} (normal : value.IsNormal) :
    0 < value.significand :=
  Nat.lt_of_lt_of_le (by decide) normal.1

/-- The absolute value of a number. -/
def worth (value : Binary64) : ℚ :=
  value.significand * 2 ^ value.exponent

/-- What a decimal is worth. -/
def Digits.worth (value : Digits) : ℚ :=
  value.digits * 10 ^ value.exponent

/-- The quotient of a value is the value's worth. -/
theorem quotient_div (value : Binary64) :
    (value.quotient.1 : ℚ) / value.quotient.2 = value.worth := by
  rw [quotient, worth, Nat.cast_mul, mul_div_assoc, twoTo_div]

/-- The quotient of decimal digits is their worth. -/
theorem Digits.quotient_div (value : Digits) :
    (value.quotient.1 : ℚ) / value.quotient.2 = value.worth := by
  rw [quotient, worth, Nat.cast_mul, mul_div_assoc, tenTo_div]

/-- The distance between a number and the next larger one with the same exponent. -/
def ulp (value : Binary64) : ℚ :=
  2 ^ value.exponent

/-- Neighbouring values are apart. -/
theorem ulp_pos (value : Binary64) : 0 < value.ulp :=
  two_zpow_pos _

/-- How far the interval of the reals that round to a number reaches below it, in quarters of its
unit. Below a power of two the numbers stand twice as close. -/
def quartersBelow (value : Binary64) : Nat :=
  if value.significand = twoTo (precision - 1) ∧ minExponent < value.exponent then 1 else 2

/-- A real rounds to the number, which has the ends of the interval if it is even. -/
def Covers (value : Binary64) (real : ℚ) : Prop :=
  let low := (value.significand - (value.quartersBelow : ℚ) / 4) * value.ulp
  let high := (value.significand + 1 / 2) * value.ulp
  if value.significand % 2 = 0 then low ≤ real ∧ real ≤ high else low < real ∧ real < high

/-- The neighbour below is a whole unit away or half of one. -/
theorem quartersBelow_cases (value : Binary64) : value.quartersBelow = 1 ∨
    value.quartersBelow = 2 := by
  unfold quartersBelow
  split
  · exact .inl rfl
  · exact .inr rfl

/-- What rounds to a number is at most half a unit away from it. -/
theorem Covers.near {value : Binary64} {real : ℚ} (covers : value.Covers real) :
    value.worth - value.ulp / 2 ≤ real ∧ real ≤ value.worth + value.ulp / 2 := by
  have positive := value.ulp_pos
  have worth : value.worth = value.significand * value.ulp := rfl
  have narrow : (value.significand - (1 : ℚ) / 2) * value.ulp ≤
      (value.significand - (value.quartersBelow : ℚ) / 4) * value.ulp := by
    refine mul_le_mul_of_nonneg_right ?_ positive.le
    rcases value.quartersBelow_cases with few | few <;> rw [few] <;> push_cast <;> linarith
  have between : (value.significand - (value.quartersBelow : ℚ) / 4) * value.ulp ≤ real ∧
      real ≤ (value.significand + 1 / 2) * value.ulp := by
    unfold Covers at covers
    split at covers
    · exact covers
    · exact ⟨covers.1.le, covers.2.le⟩
  constructor <;> nlinarith [between.1, between.2]

/-- A decimal reads as a number if its worth rounds to it. -/
theorem readsAs_iff {value : Binary64} (positive : 0 < value.significand) (decimal : Digits) :
    value.readsAs decimal = true ↔ value.Covers decimal.worth := by
  have den : (0 : ℚ) < decimal.quotient.2 := cast_tenTo_pos _
  have valueDen : (0 : ℚ) < value.quotient.2 := cast_twoTo_pos _
  have own : (twoTo value.exponent.toNat : ℚ) = value.ulp * value.quotient.2 := by
    rw [ulp, ← twoTo_div, quotient, div_mul_cancel₀ _ (cast_twoTo_pos _).ne']
  have scaled : (decimal.quotient.1 : ℚ) = decimal.worth * decimal.quotient.2 := by
    rw [← Digits.quotient_div, div_mul_cancel₀ _ den.ne']
  have enough : value.quartersBelow ≤ 4 * value.significand := by
    rcases value.quartersBelow_cases with few | few <;> omega
  have ends : value.roundingEnds =
      ((4 * value.significand - value.quartersBelow) * twoTo value.exponent.toNat,
      (4 * value.significand + 2) * twoTo value.exponent.toNat) := rfl
  -- Both comparisons are those of the rationals, times the same positive factor.
  have factor : (0 : ℚ) < 4 * value.quotient.2 * decimal.quotient.2 := by positivity
  have low : ((value.roundingEnds.1 * decimal.quotient.2 : Nat) : ℚ) =
      (value.significand - (value.quartersBelow : ℚ) / 4) * value.ulp *
        (4 * value.quotient.2 * decimal.quotient.2) := by
    rw [ends]
    push_cast [Nat.cast_sub enough]
    rw [own]
    ring
  have high : ((value.roundingEnds.2 * decimal.quotient.2 : Nat) : ℚ) =
      (value.significand + 1 / 2) * value.ulp * (4 * value.quotient.2 * decimal.quotient.2) := by
    rw [ends]
    push_cast
    rw [own]
    ring
  have middle : ((4 * decimal.quotient.1 * value.quotient.2 : Nat) : ℚ) =
      decimal.worth * (4 * value.quotient.2 * decimal.quotient.2) := by
    push_cast
    rw [scaled]
    ring
  simp only [readsAs, Covers]
  split
  · rw [Bool.and_eq_true, decide_eq_true_eq, decide_eq_true_eq, ← Nat.cast_le (α := ℚ), low, middle,
      ← Nat.cast_le (α := ℚ), middle, high, mul_le_mul_iff_left₀ factor,
      mul_le_mul_iff_left₀ factor]
  · rw [Bool.and_eq_true, decide_eq_true_eq, decide_eq_true_eq, ← Nat.cast_lt (α := ℚ), low, middle,
      ← Nat.cast_lt (α := ℚ), middle, high, mul_lt_mul_iff_left₀ factor,
      mul_lt_mul_iff_left₀ factor]

/-! ## The nearest number -/

section Nearest

variable {num den : Nat}

/-- A number is at least the power of two its logarithm names. -/
theorem two_zpow_log2_le (nonzero : num ≠ 0) : (2 : ℚ) ^ (num.log2 : Int) ≤ num := by
  rw [zpow_natCast]
  exact_mod_cast Nat.log2_self_le nonzero

/-- A number is below the next power of two. -/
theorem lt_two_zpow_log2 : (num : ℚ) < 2 ^ ((num.log2 : Int) + 1) := by
  have bound : num < 2 ^ (num.log2 + 1) := Nat.lt_log2_self
  rw [← Nat.cast_succ, zpow_natCast]
  exact_mod_cast bound

/-- The exponent leaves 53 significant bits, unless the quotient is too small for that. -/
theorem unitExponent_bounds (numPos : 0 < num) (denPos : 0 < den)
    (large : (2 : ℚ) ^ (-1022 : Int) ≤ (num : ℚ) / den) :
    (2 : ℚ) ^ (unitExponent num den + 52) ≤ (num : ℚ) / den ∧
      (num : ℚ) / den < 2 ^ (unitExponent num den + 53) := by
  have numCast : (0 : ℚ) < num := Nat.cast_pos.mpr numPos
  have denCast : (0 : ℚ) < den := Nat.cast_pos.mpr denPos
  have two : (2 : ℚ) ≠ 0 := by norm_num
  let leading : Int := (num.log2 : Int) - den.log2
  have upper : (num : ℚ) / den < 2 ^ (leading + 1) := by
    rw [div_lt_iff₀ denCast]
    calc (num : ℚ) < 2 ^ ((num.log2 : Int) + 1) := lt_two_zpow_log2
      _ = 2 ^ (leading + 1) * 2 ^ (den.log2 : Int) := by rw [← zpow_add₀ two]; congr 1; omega
      _ ≤ 2 ^ (leading + 1) * den :=
        mul_le_mul_of_nonneg_left (two_zpow_log2_le denPos.ne') (two_zpow_pos _).le
  have lower : (2 : ℚ) ^ (leading - 1) ≤ (num : ℚ) / den := by
    rw [le_div_iff₀ denCast]
    calc (2 : ℚ) ^ (leading - 1) * den ≤ 2 ^ (leading - 1) * 2 ^ ((den.log2 : Int) + 1) :=
        mul_le_mul_of_nonneg_left lt_two_zpow_log2.le (two_zpow_pos _).le
      _ = 2 ^ (num.log2 : Int) := by rw [← zpow_add₀ two]; congr 1; omega
      _ ≤ num := two_zpow_log2_le numPos.ne'
  have reaches : den * twoTo leading.toNat ≤ num * twoTo (-leading).toNat ↔
      (2 : ℚ) ^ leading ≤ (num : ℚ) / den := by
    rw [← twoTo_div, div_le_div_iff₀ (cast_twoTo_pos _) denCast, mul_comm den,
      ← Nat.cast_le (α := ℚ)]
    push_cast
    rfl
  have exponents {top : Int} (below : (2 : ℚ) ^ top ≤ (num : ℚ) / den)
      (above : (num : ℚ) / den < 2 ^ (top + 1)) :
      max (top - (precision - 1 : Nat)) minExponent + 52 = top := by
    have normal : (-1022 : Int) < top + 1 :=
      (zpow_lt_zpow_iff_right₀ (by norm_num)).mp (large.trans_lt above)
    simp only [precision, minExponent]
    omega
  have chosen : unitExponent num den =
      max ((if (2 : ℚ) ^ leading ≤ (num : ℚ) / den then leading else leading - 1) -
        (precision - 1 : Nat)) minExponent := by
    simp only [← reaches]
    rfl
  rw [chosen]
  split
  · next above =>
    have same := exponents above upper
    rw [show (53 : Int) = 52 + 1 from rfl, ← add_assoc, same]
    exact ⟨above, upper⟩
  · next below =>
    have next : (num : ℚ) / den < 2 ^ (leading - 1 + 1) := by
      rw [sub_add_cancel]
      exact not_le.mp below
    have same := exponents lower next
    rw [show (53 : Int) = 52 + 1 from rfl, ← add_assoc, same]
    exact ⟨lower, next⟩

/-- The quotient in units of a power of two. -/
theorem quotient_in_units (denPos : 0 < den) (exponent : Int) :
    ((num * twoTo (-exponent).toNat : Nat) : ℚ) / (den * twoTo exponent.toNat : Nat) *
      2 ^ exponent =
      (num : ℚ) / den := by
  have denCast : (den : ℚ) ≠ 0 := Nat.cast_ne_zero.mpr denPos.ne'
  have outer := (cast_twoTo_pos (-exponent).toNat).ne'
  have inner := (cast_twoTo_pos exponent.toNat).ne'
  rw [← twoTo_div]
  push_cast
  field_simp

/-- A quotient is at most half a unit away from what it is rounded to, and nearer than that if this
is odd. -/
theorem rounded_near (denPos : 0 < den) (exponent : Int) {rounded : Nat}
    (roundedEq : roundDiv .toEven (num * twoTo (-exponent).toNat) (den * twoTo exponent.toNat) =
      rounded) :
    ((rounded : ℚ) - 1 / 2) * 2 ^ exponent ≤ (num : ℚ) / den ∧
      (num : ℚ) / den ≤ ((rounded : ℚ) + 1 / 2) * 2 ^ exponent ∧
      (rounded % 2 ≠ 0 → ((rounded : ℚ) - 1 / 2) * 2 ^ exponent < (num : ℚ) / den ∧
        (num : ℚ) / den < ((rounded : ℚ) + 1 / 2) * 2 ^ exponent) := by
  have scaledPos : 0 < den * twoTo exponent.toNat := Nat.mul_pos denPos (twoTo_pos _)
  have nearest := roundDiv_nearestEven (num * twoTo (-exponent).toNat) scaledPos
  rw [roundedEq] at nearest
  rw [← quotient_in_units denPos exponent]
  generalize num * twoTo (-exponent).toNat = scaled at nearest ⊢
  generalize den * twoTo exponent.toNat = unit at nearest scaledPos ⊢
  have unitCast : (0 : ℚ) < unit := Nat.cast_pos.mpr scaledPos
  have power : (0 : ℚ) < 2 ^ exponent := two_zpow_pos exponent
  have above : (2 * scaled : ℚ) ≤ 2 * (rounded * unit) + unit := by exact_mod_cast nearest.above
  have below : (2 * (rounded * unit) : ℚ) ≤ 2 * scaled + unit := by exact_mod_cast nearest.below
  have even : (2 * scaled : ℚ) = 2 * (rounded * unit) + unit ∨
      (2 * (rounded * unit) : ℚ) = 2 * scaled + unit →
      rounded % 2 = 0 := by
    intro half
    have whole := nearest.even (by exact_mod_cast half)
    omega
  simp only [mul_le_mul_iff_left₀ power, mul_lt_mul_iff_left₀ power]
  refine ⟨?_, ?_, fun odd => ⟨?_, ?_⟩⟩
  · rw [le_div_iff₀ unitCast]
    linarith
  · rw [div_le_iff₀ unitCast]
    linarith
  · rw [lt_div_iff₀ unitCast]
    have apart : (2 * (rounded * unit) : ℚ) ≠ 2 * scaled + unit :=
      fun half => odd (even (.inr half))
    have strict := lt_of_le_of_ne below apart
    linarith
  · rw [div_lt_iff₀ unitCast]
    have apart : (2 * scaled : ℚ) ≠ 2 * (rounded * unit) + unit :=
      fun half => odd (even (.inl half))
    have strict := lt_of_le_of_ne above apart
    linarith

/-- What a quotient is rounded to has all significant bits, or is the next power of two. -/
theorem rounded_bounds (denPos : 0 < den) {exponent : Int} {rounded : Nat}
    (roundedEq : roundDiv .toEven (num * twoTo (-exponent).toNat) (den * twoTo exponent.toNat) =
      rounded)
    (lower : (2 : ℚ) ^ (exponent + 52) ≤ (num : ℚ) / den)
      (upper : (num : ℚ) / den < 2 ^ (exponent + 53)) :
    2 ^ 52 ≤ rounded ∧ rounded ≤ 2 ^ 53 := by
  obtain ⟨below, above, -⟩ := rounded_near denPos exponent roundedEq
  have power : (0 : ℚ) < 2 ^ exponent := two_zpow_pos exponent
  rw [zpow_add₀ (by norm_num), mul_comm] at lower upper
  have least : ((2 : ℚ) ^ 52) ≤ rounded + 1 / 2 := le_of_mul_le_mul_right (lower.trans above) power
  have most : (rounded : ℚ) - 1 / 2 < 2 ^ 53 :=
    lt_of_mul_lt_mul_right (below.trans_lt upper) power.le
  constructor
  · have strict : ((2 ^ 52 : Nat) : ℚ) < (rounded + 1 : Nat) := by push_cast; linarith
    exact Nat.lt_succ_iff.mp (Nat.cast_lt.mp strict)
  · have strict : (rounded : ℚ) < (2 ^ 53 + 1 : Nat) := by push_cast; linarith
    exact Nat.lt_succ_iff.mp (Nat.cast_lt.mp strict)

/-- A quotient that is neither too small nor too large has a nearest number with all its significant
bits. -/
theorem ofQuotient?_covers (negative : Bool) (numPos : 0 < num) (denPos : 0 < den)
    (large : (2 : ℚ) ^ (-1022 : Int) ≤ (num : ℚ) / den)
    (small : (num : ℚ) / den < 2 ^ (1000 : Int)) :
    ∃ value, ofQuotient? negative num den = some value ∧ value.negative = negative ∧
      value.IsNormal ∧ value.Covers ((num : ℚ) / den) := by
  obtain ⟨lower, upper⟩ := unitExponent_bounds numPos denPos large
  have atLeast : minExponent ≤ unitExponent num den := le_max_right _ _
  have atMost : unitExponent num den + 52 < 1000 :=
    (zpow_lt_zpow_iff_right₀ (by norm_num : (1 : ℚ) < 2)).mp (lower.trans_lt small)
  simp only [ofQuotient?, if_neg numPos.ne']
  generalize unitExponent num den = exponent at lower upper atLeast atMost ⊢
  generalize roundedEq : roundDiv .toEven (num * twoTo (-exponent).toNat)
    (den * twoTo exponent.toNat) = rounded
  obtain ⟨below, above, odd⟩ := rounded_near denPos exponent roundedEq
  obtain ⟨least, most⟩ := rounded_bounds denPos roundedEq lower upper
  have power : (0 : ℚ) < 2 ^ exponent := two_zpow_pos exponent
  by_cases full : rounded = twoTo precision
  · -- The next power of two has a larger exponent, and the numbers below it stand twice as close.
    have fits : exponent + 1 ≤ maxExponent := by simp only [maxExponent]; omega
    have bits : 2 ^ 52 ≤ twoTo (precision - 1) ∧ twoTo (precision - 1) < 2 ^ 53 := by decide
    refine ⟨⟨negative, twoTo (precision - 1), exponent + 1⟩, ?_, rfl, bits, ?_⟩
    · simp only [if_pos full, if_pos fits]
    · have quarter : quartersBelow ⟨negative, twoTo (precision - 1), exponent + 1⟩ = 1 :=
        if_pos ⟨rfl, by simp only [minExponent] at *; omega⟩
      have double : (2 : ℚ) ^ (exponent + 1) = 2 * 2 ^ exponent := by
        rw [zpow_add_one₀ (by norm_num), mul_comm]
      have next : (rounded : ℚ) = 2 * twoTo (precision - 1) := by
        rw [full, cast_twoTo, cast_twoTo]
        norm_num
      simp only [Covers, quarter, ulp, double]
      rw [if_pos (by decide), ← mul_assoc, ← mul_assoc]
      rw [next] at below above
      constructor
      · exact le_trans (mul_le_mul_of_nonneg_right (by push_cast; linarith) power.le) below
      · exact above.trans (mul_le_mul_of_nonneg_right (by linarith) power.le)
  · have fits : exponent ≤ maxExponent := by simp only [maxExponent]; omega
    refine ⟨⟨negative, rounded, exponent⟩, ?_, rfl, ⟨least, Nat.lt_of_le_of_ne most full⟩, ?_⟩
    · simp only [if_neg full, if_pos fits]
    · by_cases edge : rounded = twoTo (precision - 1) ∧ minExponent < exponent
      · -- Of a power of two the quotient is not below, or its exponent would be smaller.
        have quarter : quartersBelow ⟨negative, rounded, exponent⟩ = 1 := if_pos edge
        have even : rounded % 2 = 0 := by rw [edge.1]; decide
        have whole : (rounded : ℚ) = 2 ^ 52 := by
          rw [edge.1, cast_twoTo]
          norm_num
        simp only [Covers, quarter, ulp, if_pos even]
        refine ⟨le_trans ?_ lower, above⟩
        rw [zpow_add₀ (by norm_num), mul_comm, whole]
        exact mul_le_mul_of_nonneg_left (by push_cast; linarith) power.le
      · have halves : quartersBelow ⟨negative, rounded, exponent⟩ = 2 := if_neg edge
        have half : ((2 : Nat) : ℚ) / 4 = 1 / 2 := by norm_num
        simp only [Covers, halves, ulp, half]
        split
        · exact ⟨below, above⟩
        · next uneven => exact odd uneven

end Nearest

end Binary64

end Prepaid
