import Prepaid.Proofs.Binary64.Text
import Prepaid.Proofs.Decimal.Numeral
import Prepaid.Proofs.Money.Worth

/-!
# Decimals by way of binary64

A decimal may be read by way of the binary64 number nearest to it, from the plain text of
that number. At most fifteen significant digits survive the detour, and more than
seventeen do not.
-/

namespace Prepaid

/-! ## Sizes -/

namespace Text.Numeral

variable {left right : Numeral}

/-- The number that a numeral is. -/
def worth (numeral : Numeral) : ℚ :=
  numeral.mantissa / tenTo numeral.scale

/-- The absolute value of the number. -/
def size (numeral : Numeral) : ℚ :=
  numeral.coefficient / tenTo numeral.scale

/-- Numerals of one sign and one size are worth the same. -/
theorem worth_congr (sign : left.sign.negative = right.sign.negative)
    (same : left.size = right.size) :
    left.worth = right.worth := by
  have signed (numeral : Numeral) :
      numeral.worth = if numeral.sign.negative then -numeral.size else numeral.size := by
    unfold worth size mantissa
    split <;> push_cast <;> ring
  rw [signed, signed, sign, same]

/-- The size of a numeral is its coefficient, shifted by its places. -/
theorem size_eq_zpow (numeral : Numeral) :
    numeral.size = numeral.coefficient * 10 ^ (-(numeral.scale : Int)) := by
  rw [size, zpow_neg, zpow_natCast, ← cast_tenTo, div_eq_mul_inv]

end Text.Numeral

namespace Decimal

variable {value : Decimal} {numeral : Text.Numeral}

/-- The absolute value of a decimal. -/
def size (value : Decimal) : ℚ :=
  value.coefficient / tenTo value.scale

/-- The size of a decimal is its coefficient, shifted by its scale. -/
theorem size_eq_zpow (value : Decimal) :
    value.size = value.coefficient * 10 ^ (-(value.scale : Int)) := by
  rw [size, zpow_neg, zpow_natCast, ← cast_tenTo, div_eq_mul_inv]

/-- What is worth the same is of the same size. -/
theorem size_eq_of_worth_eq (same : value.worth = numeral.worth) : value.size = numeral.size := by
  have absolute := congrArg abs same
  have magnitude : |numeral.mantissa| = numeral.coefficient := by
    rw [Int.abs_eq_natAbs, numeral.natAbs_mantissa]
  have own : |value.mantissa| = value.coefficient := by
    rw [Int.abs_eq_natAbs, natAbs_mantissa]
  rw [worth, Text.Numeral.worth, abs_div, abs_div, Nat.abs_cast, Nat.abs_cast, ← Int.cast_abs,
    ← Int.cast_abs, magnitude, own, Int.cast_natCast, Int.cast_natCast] at absolute
  exact absolute

/-- Two sizes are compared without division, over the product of their powers. -/
theorem size_eq_iff : value.size = numeral.size ↔
    value.coefficient * tenTo numeral.scale = numeral.coefficient * tenTo value.scale := by
  rw [size, Text.Numeral.size, div_eq_div_iff (cast_tenTo_pos _).ne' (cast_tenTo_pos _).ne']
  exact_mod_cast Iff.rfl

/-- A decimal other than zero is neither smaller nor larger than its places and its coefficient
allow. -/
theorem size_bounds (positive : 0 < value.coefficient) :
    (10 : ℚ) ^ (-28 : Int) ≤ value.size ∧ value.size < 10 ^ (29 : Int) := by
  have places : value.scale ≤ 28 := value.scale_le
  constructor
  · rw [size_eq_zpow]
    calc (10 : ℚ) ^ (-28 : Int) ≤ 10 ^ (-(value.scale : Int)) :=
          zpow_le_zpow_right₀ (by norm_num) (by omega)
      _ ≤ _ := le_mul_of_one_le_left (ten_zpow_pos _).le (by exact_mod_cast positive)
  · have one : (1 : ℚ) ≤ tenTo value.scale := by exact_mod_cast tenTo_pos _
    have most : value.coefficient < 10 ^ 29 := Nat.lt_of_le_of_lt value.coefficient_le (by decide)
    calc value.size ≤ value.coefficient := div_le_self (Nat.cast_nonneg _) one
      _ < 10 ^ (29 : Int) := by exact_mod_cast most

/-- The decimal has at most so many significant digits. -/
def HasDigits (count : Nat) (value : Decimal) : Prop :=
  ∃ few zeros, few < tenTo count ∧ value.coefficient = few * tenTo zeros

/-- A one with zeros behind it has one significant digit. -/
theorem hasDigits_of_le {count few zeros : Nat} (some : 0 < count) (le : few ≤ tenTo count)
    (coefficient : value.coefficient = few * tenTo zeros) : value.HasDigits count := by
  by_cases full : few = tenTo count
  · refine ⟨1, count + zeros, Nat.lt_of_lt_of_le (by decide) (ten_le_tenTo some), ?_⟩
    rw [coefficient, full, tenTo_add, Nat.one_mul]
  · exact ⟨few, zeros, Nat.lt_of_le_of_ne le full, coefficient⟩

end Decimal

/-! ## The nearest number -/

namespace Binary64

variable {numeral : Text.Numeral} {written : Decimal}

/-- The numeral of a decimal other than zero is read as a number with all significant bits. -/
theorem numeral_nearest (same : written.worth = numeral.worth)
    (positive : 0 < written.coefficient) :
    ∃ value, ofChars? numeral.chars = some (.finite value) ∧
      value.negative = numeral.sign.negative ∧
      value.IsNormal ∧ value.Covers written.size := by
  have size := (Decimal.size_eq_of_worth_eq same).trans numeral.size_eq_zpow
  obtain ⟨large, small⟩ := Decimal.size_bounds positive
  have sizePos : 0 < written.size := (ten_zpow_pos _).trans_le large
  have some : 0 < numeral.coefficient := by
    refine Nat.pos_of_ne_zero fun none => sizePos.ne' ?_
    rw [size, none, Nat.cast_zero, zero_mul]
  rw [size] at large small ⊢
  obtain ⟨value, rounded, sign, normal, covers⟩ :=
    ofDecimal?_covers numeral.sign.negative some large small
  exact ⟨value, ofChars?_numeral rounded, sign, normal, covers⟩

/-! ## Few digits -/

/-- A decimal of at most fifteen significant digits is the shortest one of the nearest number. -/
theorem shortest_of_few (few : written.HasDigits 15) (positive : 0 < written.coefficient)
    {value : Binary64} (normal : value.IsNormal) (covers : value.Covers written.size) :
    (value.shortest .awayFromZero).worth = written.size ∧
      -(written.scale : Int) ≤ (value.shortest .awayFromZero).exponent := by
  obtain ⟨digits, zeros, bound, coefficient⟩ := few
  have size : written.size = digits * 10 ^ ((zeros : Int) - written.scale) := by
    rw [written.size_eq_zpow, coefficient, Nat.cast_mul, cast_tenTo, mul_assoc, ← zpow_natCast,
      ← zpow_add₀ (by norm_num), sub_eq_add_neg]
  have some : 0 < digits := by
    refine Nat.pos_of_ne_zero fun none => positive.ne' ?_
    rw [coefficient, none, Nat.zero_mul]
  rw [size] at covers ⊢
  obtain ⟨worth, reaches⟩ := shortest_of_covers .awayFromZero normal some bound covers
  exact ⟨worth, by omega⟩

/-- A value shows the digits that were found for it. -/
theorem Shows.size_eq {value : Binary64} (shows : value.Shows numeral) :
    numeral.size = (value.shortest .awayFromZero).worth := by
  rw [Text.Numeral.size, shows.coefficient, shows.scale, ← Digits.quotient_div]
  rfl

/-- The number whose shortest decimal is that of a numeral has a text that spells it. -/
theorem reread_of_shortest {value : Binary64} (same : written.worth = numeral.worth)
    (sign : value.negative = numeral.sign.negative)
    (worth : (value.shortest .awayFromZero).worth = written.size)
    (reaches : -(written.scale : Int) ≤ (value.shortest .awayFromZero).exponent) :
    ∃ again, Decimal.ofText? (String.ofList value.plainChars) = some again ∧
    again.worth = written.worth := by
  obtain ⟨plain, shows⟩ := value.exists_shows
  have size : written.size = plain.size := worth.symm.trans shows.size_eq.symm
  have few : plain.scale ≤ written.scale := by
    rw [shows.scale]
    omega
  have fits : plain.coefficient ≤ written.coefficient := by
    refine Nat.le_of_mul_le_mul_right ?_ (tenTo_pos written.scale)
    rw [← Decimal.size_eq_iff.mp size]
    exact Nat.mul_le_mul_left _ (Nat.pow_le_pow_right (by decide) few)
  obtain ⟨again, read, mantissaEq, scaleEq⟩ := Decimal.ofText?_numeral shows.whole
    (Nat.le_trans fits written.coefficient_le) (Nat.le_trans few written.scale_le)
  refine ⟨again, by rw [shows.chars, read], ?_⟩
  rw [Decimal.worth, mantissaEq, scaleEq, same]
  exact Text.Numeral.worth_congr (shows.sign.trans sign)
    (size.symm.trans (Decimal.size_eq_of_worth_eq same))

/-- At most fifteen significant digits survive. -/
theorem numeral_survives (same : written.worth = numeral.worth) (few : written.HasDigits 15) :
    ∃ value again, ofChars? numeral.chars = some (.finite value) ∧
      Decimal.ofText? (String.ofList value.plainChars) = some again ∧
      again.worth = written.worth := by
  by_cases empty : written.coefficient = 0
  · have crossed := Decimal.size_eq_iff.mp (Decimal.size_eq_of_worth_eq same)
    rw [empty, Nat.zero_mul] at crossed
    have none : numeral.coefficient = 0 :=
      (Nat.mul_eq_zero.mp crossed.symm).resolve_right (tenTo_pos written.scale).ne'
    have rounded : ofDecimal? numeral.sign.negative numeral.coefficient (-(numeral.scale : Int)) =
        some (zero numeral.sign.negative) := by rw [ofDecimal?, if_pos (.inl none)]
    have shortest : (zero numeral.sign.negative).shortest .awayFromZero = ⟨0, 0⟩ := rfl
    have sign : (zero numeral.sign.negative).negative = numeral.sign.negative := rfl
    have worth : ((zero numeral.sign.negative).shortest .awayFromZero).worth = written.size := by
      rw [shortest, Decimal.size, empty]
      simp [Digits.worth]
    have reaches : -(written.scale : Int) ≤
        ((zero numeral.sign.negative).shortest .awayFromZero).exponent := by
      rw [shortest]
      exact neg_nonpos.mpr (Int.natCast_nonneg _)
    obtain ⟨again, read, equal⟩ := reread_of_shortest same sign worth reaches
    exact ⟨_, again, ofChars?_numeral rounded, read, equal⟩
  · have positive := Nat.pos_of_ne_zero empty
    obtain ⟨value, nearest, sign, normal, covers⟩ := numeral_nearest same positive
    obtain ⟨worth, reaches⟩ := shortest_of_few few positive normal covers
    obtain ⟨again, read, equal⟩ := reread_of_shortest same sign worth reaches
    exact ⟨value, again, nearest, read, equal⟩

/-! ## Many digits -/

/-- The number nearest to a decimal of many digits has a shortest decimal with at most 28 places. -/
theorem exponent_of_many (many : tenTo 17 ≤ written.coefficient) {value : Binary64}
    (normal : value.IsNormal) (covers : value.Covers written.size) : -28 ≤
      (value.shortest .awayFromZero).exponent := by
  obtain ⟨-, reaches⟩ := shortest_digits_le .awayFromZero normal
  obtain ⟨-, most⟩ := magnitude_bounds normal.significand_pos
  have places : written.scale ≤ 28 := written.scale_le
  have step := ten_zpow_pos (-28)
  have large : (10 : ℚ) ^ 17 * 10 ^ (-28 : Int) ≤ written.size := by
    have cast : (10 : ℚ) ^ 17 ≤ written.coefficient := by exact_mod_cast many
    rw [written.size_eq_zpow]
    exact mul_le_mul cast (zpow_le_zpow_right₀ (by norm_num) (by omega)) step.le (Nat.cast_nonneg _)
  have ulp : (2 : ℚ) ^ 52 * value.ulp ≤ value.worth :=
    mul_le_mul_of_nonneg_right (by exact_mod_cast normal.1) value.ulp_pos.le
  have near := covers.near.2
  have less : (10 : ℚ) ^ (-12 : Int) < 10 ^ value.magnitude := by
    refine lt_trans ?_ most
    norm_num at large ulp ⊢
    linarith [value.ulp_pos]
  have least : -12 < value.magnitude := (zpow_lt_zpow_iff_right₀ (by norm_num)).mp less
  omega

/-- What is read from the text of a number without too many places is worth what its shortest
decimal is. -/
theorem size_of_reread {value : Binary64} {again : Decimal}
    (few : -28 ≤ (value.shortest .awayFromZero).exponent)
    (short : (value.shortest .awayFromZero).digits ≤ tenTo 17)
    (reread : Decimal.ofText? (String.ofList value.plainChars) = some again) :
    ∃ plain, value.Shows plain ∧ again.worth = plain.worth := by
  obtain ⟨plain, shows⟩ := value.exists_shows
  refine ⟨plain, shows, ?_⟩
  rw [shows.chars] at reread
  have places : plain.scale ≤ 28 := by
    rw [shows.scale]
    omega
  by_cases fits : plain.coefficient ≤ Decimal.maxCoefficient
  · obtain ⟨same, read, mantissaEq, scaleEq⟩ := Decimal.ofText?_numeral shows.whole fits places
    cases read.symm.trans reread
    rw [Decimal.worth, mantissaEq, scaleEq, Text.Numeral.worth]
  · -- With places the digits would fit, so there are none, and the number is too large to be read.
    have integral : plain.scale = 0 := by
      by_contra some
      have none : (value.shortest .awayFromZero).exponent.toNat = 0 := by
        have scale := shows.scale
        omega
      rw [shows.coefficient, none, tenTo_zero, Nat.mul_one] at fits
      exact fits (Nat.le_trans short (by decide))
    exact (fits (Decimal.ofText?_integer (shows.pointless integral) reread).1).elim

/-- A decimal of more than seventeen digits has a large coefficient. -/
theorem many_le_coefficient (many : ¬ written.HasDigits 17) : tenTo 17 ≤ written.coefficient := by
  refine Nat.le_of_not_lt fun less => many ⟨written.coefficient, 0, less, ?_⟩
  rw [tenTo_zero, Nat.mul_one]

/-- A numeral that comes to a decimal of many digits has a value nearest to it: it is far from being
out of range. -/
theorem exists_nearest_of_many (same : written.worth = numeral.worth)
    (many : ¬ written.HasDigits 17) :
    ∃ value, ofChars? numeral.chars = some (.finite value) := by
  obtain ⟨value, nearest, -⟩ :=
    numeral_nearest same (Nat.lt_of_lt_of_le (tenTo_pos 17) (many_le_coefficient many))
  exact ⟨value, nearest⟩

/-- More than seventeen significant digits do not survive. -/
theorem numeral_lost (same : written.worth = numeral.worth) (many : ¬ written.HasDigits 17)
    {value : Binary64} {again : Decimal} (nearest : ofChars? numeral.chars = some (.finite value))
    (reread : Decimal.ofText? (String.ofList value.plainChars) = some again) :
    again.worth ≠ written.worth := by
  intro equal
  have large := many_le_coefficient many
  obtain ⟨other, otherNearest, -, normal, covers⟩ :=
    numeral_nearest same (Nat.lt_of_lt_of_le (tenTo_pos 17) large)
  cases nearest.symm.trans otherNearest
  obtain ⟨short, -⟩ := shortest_digits_le .awayFromZero normal
  obtain ⟨plain, shows, worth⟩ := size_of_reread (exponent_of_many large normal covers) short reread
  have crossed := Decimal.size_eq_iff.mp (Decimal.size_eq_of_worth_eq (equal.symm.trans worth))
  rw [shows.coefficient] at crossed
  by_cases finer : plain.scale ≤ written.scale
  · have split : tenTo written.scale = tenTo (written.scale - plain.scale) * tenTo plain.scale := by
      rw [← tenTo_add]
      congr 1
      omega
    rw [split, ← Nat.mul_assoc, Nat.mul_assoc _ _ (tenTo (written.scale - plain.scale)),
      ← tenTo_add] at crossed
    exact many (Decimal.hasDigits_of_le (by decide) short
      (Nat.eq_of_mul_eq_mul_right (tenTo_pos _) crossed))
  · have none : (value.shortest .awayFromZero).exponent.toNat = 0 := by
      have scale := shows.scale
      omega
    rw [none, tenTo_zero, Nat.mul_one] at crossed
    have atMost : written.coefficient ≤ (value.shortest .awayFromZero).digits := by
      refine Nat.le_of_mul_le_mul_right ?_ (tenTo_pos written.scale)
      rw [← crossed]
      exact Nat.mul_le_mul_left _ (Nat.pow_le_pow_right (by decide) (by omega))
    have whole : written.coefficient = written.coefficient * tenTo 0 := by
      rw [tenTo_zero, Nat.mul_one]
    exact many (Decimal.hasDigits_of_le (by decide) (Nat.le_trans atMost short) whole)

end Binary64

end Prepaid
