import Prepaid.Proofs.Binary64.Rounding
import Prepaid.Proofs.Text.Digits

/-!
# The shortest decimal

A decimal of at most fifteen digits is the shortest one of the binary64 number that it
rounds to: around such a number the decimals of fifteen digits stand further apart than
the binary64 numbers, so that no other one rounds to it.
-/

namespace Prepaid.Binary64

variable {value : Binary64}

/-- The quotient of a positive value has a positive numerator. -/
theorem quotient_num_pos (positive : 0 < value.significand) : 0 < value.quotient.1 :=
  Nat.mul_pos positive (twoTo_pos _)

/-- The quotient of a value can be formed. -/
theorem quotient_den_pos (value : Binary64) : 0 < value.quotient.2 :=
  twoTo_pos _

/-- A quotient lies between the same naturals as its whole part. -/
theorem cast_div_bounds {num den low high : Nat} (denPos : 0 < den) (least : low ≤ num / den)
    (most : num / den < high) : (low : ℚ) ≤ (num : ℚ) / den ∧ (num : ℚ) / den < high := by
  have denCast : (0 : ℚ) < den := Nat.cast_pos.mpr denPos
  rw [le_div_iff₀ denCast, div_lt_iff₀ denCast]
  exact_mod_cast And.intro ((Nat.le_div_iff_mul_le denPos).mp least)
    ((Nat.div_lt_iff_lt_mul denPos).mp most)

/-- A power of ten with a natural exponent is the table's. -/
theorem ten_zpow_of_eq {exponent : Int} (places : Nat) (same : exponent = places) :
    (10 : ℚ) ^ exponent = tenTo places := by
  rw [same, zpow_natCast, cast_tenTo]

/-- A fraction lies between the powers of ten that its reciprocal says. -/
theorem fraction_bounds {num den width : Nat} (numPos : 0 < num) (denPos : 0 < den)
    (some : 0 < width) (least : (tenTo (width - 1) : ℚ) ≤ (den : ℚ) / num)
    (most : (den : ℚ) / num < tenTo width) : (10 : ℚ) ^ (-(width : Int)) < (num : ℚ) / den ∧
      (num : ℚ) / den ≤ 10 ^ (1 - (width : Int)) ∧
      ((num : ℚ) / den = 10 ^ (1 - (width : Int)) ↔ num * tenTo (width - 1) = den) := by
  have numCast : (0 : ℚ) < num := Nat.cast_pos.mpr numPos
  have denCast : (0 : ℚ) < den := Nat.cast_pos.mpr denPos
  have inverse (exponent : Int) (places : Nat) (same : -exponent = places) :
      (10 : ℚ) ^ exponent = (tenTo places : ℚ)⁻¹ := by
    rw [← ten_zpow_of_eq places same, zpow_neg, inv_inv]
  have flipped : (num : ℚ) / den = ((den : ℚ) / num)⁻¹ := (inv_div _ _).symm
  rw [inverse (1 - (width : Int)) (width - 1) (by omega), inverse _ _ (neg_neg _), flipped]
  refine ⟨inv_strictAnti₀ (div_pos denCast numCast) most, inv_anti₀ (cast_tenTo_pos _) least, ?_⟩
  rw [inv_inj, div_eq_iff numCast.ne', eq_comm, mul_comm]
  exact_mod_cast Iff.rfl

/-- The magnitude says between which powers of ten a number lies. -/
theorem magnitude_bounds (positive : 0 < value.significand) :
    (10 : ℚ) ^ (value.magnitude - 1) ≤ value.worth ∧ value.worth < 10 ^ value.magnitude := by
  have numPos := quotient_num_pos positive
  have denPos := value.quotient_den_pos
  have worth := value.quotient_div
  unfold magnitude
  generalize value.quotient = quotient at numPos denPos worth ⊢
  obtain ⟨num, den⟩ := quotient
  simp only at numPos denPos worth ⊢
  rw [← worth]
  split
  · next whole =>
    have digits := Text.length_ofNat_bounds (Nat.div_pos whole denPos)
    have some : 0 < (Text.ofNat (num / den)).length := List.length_pos_iff.mpr (Text.ofNat_ne_nil _)
    rw [← Text.ofNat, ten_zpow_of_eq ((Text.ofNat (num / den)).length - 1) (by omega),
      ten_zpow_of_eq _ rfl]
    exact cast_div_bounds denPos digits.1 digits.2
  · next part =>
    have digits := Text.length_ofNat_bounds (Nat.div_pos (by omega : num ≤ den) numPos)
    have some : 0 < (Text.ofNat (den / num)).length := List.length_pos_iff.mpr (Text.ofNat_ne_nil _)
    obtain ⟨least, most⟩ := cast_div_bounds numPos digits.1 digits.2
    rw [← Text.ofNat]
    generalize (Text.ofNat (den / num)).length = width at some least most ⊢
    obtain ⟨lower, upper, exactly⟩ := fraction_bounds numPos denPos some least most
    split
    · next power =>
      rw [exactly.mpr power]
      constructor
      · exact le_of_eq (by congr 1; omega)
      · exact zpow_lt_zpow_right₀ (by norm_num) (by omega)
    · next between =>
      refine ⟨le_trans (le_of_eq (by congr 1; omega)) lower.le, lt_of_le_of_ne upper ?_⟩
      exact fun same => between (exactly.mp same)

/-! ## Grids -/

section Grids

variable {tie : Tie} {exponent : Int}

/-- The quotient in steps of a grid. -/
theorem quotient_on_grid {num den : Nat} (denPos : 0 < den) (exponent : Int) :
    ((num * tenTo (-exponent).toNat : Nat) : ℚ) / (den * tenTo exponent.toNat : Nat) *
      10 ^ exponent =
      (num : ℚ) / den := by
  have denCast : (den : ℚ) ≠ 0 := Nat.cast_ne_zero.mpr denPos.ne'
  have outer := (cast_tenTo_pos (-exponent).toNat).ne'
  have inner := (cast_tenTo_pos exponent.toNat).ne'
  rw [← tenTo_div]
  push_cast
  field_simp

/-- How many whole steps of a grid a number has. -/
def steps (value : Binary64) (exponent : Int) : Nat :=
  value.quotient.1 * tenTo (-exponent).toNat / (value.quotient.2 * tenTo exponent.toNat)

/-- The steps to a value are counted by one division. -/
theorem quotient_eq_steps (value : Binary64) (exponent : Int) :
    value.quotient.1 * tenTo (-exponent).toNat / (value.quotient.2 * tenTo exponent.toNat) =
      value.steps exponent := rfl

/-- A value lies between the grid point its steps lead to and the next one. -/
theorem steps_bounds (value : Binary64) (exponent : Int) :
    (value.steps exponent : ℚ) * 10 ^ exponent ≤ value.worth ∧
    value.worth < (value.steps exponent + 1) * 10 ^ exponent := by
  have scaledPos : 0 < value.quotient.2 * tenTo exponent.toNat :=
    Nat.mul_pos value.quotient_den_pos (tenTo_pos _)
  obtain ⟨least, most⟩ := cast_div_bounds scaledPos (Nat.le_refl (value.steps exponent))
    (Nat.lt_succ_self (value.steps exponent))
  have step := ten_zpow_pos exponent
  rw [← value.quotient_div, ← quotient_on_grid value.quotient_den_pos exponent]
  push_cast at least most ⊢
  exact ⟨mul_le_mul_of_nonneg_right least step.le, mul_lt_mul_of_pos_right most step⟩

/-- What is found on a grid is one of the two neighbours of the number, and reads back. -/
theorem neighbour_of_onGrid? {decimal : Digits}
    (found : value.onGrid? tie exponent = some decimal) :
    decimal.exponent = exponent ∧
      (decimal.digits = value.steps exponent ∨ decimal.digits = value.steps exponent + 1) ∧
      value.readsAs decimal = true := by
  simp only [onGrid?, quotient_eq_steps] at found
  split at found
  · next below above =>
    cases found
    have least := le_roundDiv tie (value.quotient.1 * tenTo (-exponent).toNat)
      (value.quotient.2 * tenTo exponent.toNat)
    have most := roundDiv_le_succ tie (value.quotient.1 * tenTo (-exponent).toNat)
      (value.quotient.2 * tenTo exponent.toNat)
    obtain rounded | rounded := Nat.le_and_le_add_one_iff.mp ⟨least, most⟩
    · rw [rounded]
      exact ⟨rfl, .inl rfl, below⟩
    · rw [rounded]
      exact ⟨rfl, .inr rfl, above⟩
  · next below _ =>
    cases found
    exact ⟨rfl, .inl rfl, below⟩
  · next _ above =>
    cases found
    exact ⟨rfl, .inr rfl, above⟩
  · cases found

/-- A point of a grid that reads back and is less than a step away is a neighbour, so that one is
found. -/
theorem onGrid?_isSome {digits : Nat} (below : value.worth < (digits + 1) * 10 ^ exponent)
    (above : (digits - 1) * 10 ^ exponent < value.worth)
    (reads : value.readsAs ⟨digits, exponent⟩ = true) :
    (value.onGrid? tie exponent).isSome := by
  obtain ⟨stepsLe, ltSteps⟩ := value.steps_bounds exponent
  have step := ten_zpow_pos exponent
  have less := lt_of_mul_lt_mul_right (stepsLe.trans_lt below) step.le
  have more := lt_of_mul_lt_mul_right (above.trans ltSteps) step.le
  have most : value.steps exponent < digits + 1 := by exact_mod_cast less
  have least : digits < value.steps exponent + 2 := by
    have cast : (digits : ℚ) < value.steps exponent + 2 := by linarith
    exact_mod_cast cast
  simp only [onGrid?, quotient_eq_steps]
  obtain same | same : value.steps exponent = digits ∨ value.steps exponent + 1 = digits := by omega
  · rw [same, reads]
    split <;> first | rfl | contradiction
  · rw [same, reads]
    split <;> first | rfl | contradiction

end Grids

/-- The first hit of a search is no later than any hit. -/
theorem findSome?_range {α : Type} (find? : Nat → Option α) {count index : Nat}
    (less : index < count) (hit : (find? index).isSome) :
    ∃ first ≤ index, (find? first).isSome ∧ (List.range count).findSome? find? = find? first := by
  induction count generalizing index with
  | zero => omega
  | succ count ih =>
    rw [List.range_succ, List.findSome?_append]
    cases earlier : (List.range count).findSome? find? with
    | none =>
      have last : index = count := by
        by_contra apart
        rw [List.findSome?_eq_none_iff.mp earlier index (List.mem_range.mpr (by omega))] at hit
        cases hit
      exact ⟨index, le_rfl, hit, by simp [last]⟩
    | some found =>
      obtain ⟨other, member, otherFound⟩ := List.exists_of_findSome?_eq_some earlier
      rw [List.mem_range] at member
      by_cases inside : index < count
      · obtain ⟨first, le, some, same⟩ := ih inside hit
        exact ⟨first, le, some, earlier.symm.trans same⟩
      · obtain ⟨first, le, some, same⟩ := ih member (by rw [otherFound]; rfl)
        exact ⟨first, by omega, some, earlier.symm.trans same⟩

/-- The shortest decimal is what is found on some grid, no finer than any on which something is
found. -/
theorem exists_found {tie : Tie} {count : Nat} (positive : 0 < value.significand)
    (less : count < 17) (hit : (value.onGrid? tie (value.magnitude - (count + 1 : Nat))).isSome) :
    ∃ first ≤ count, ∃ found, value.onGrid? tie (value.magnitude - (first + 1 : Nat)) = some found ∧
      value.shortest tie = found.carry := by
  obtain ⟨first, early, some, search⟩ :=
    findSome?_range (fun count => value.onGrid? tie (value.magnitude - (count + 1 : Nat))) less hit
  obtain ⟨found, foundEq⟩ := Option.isSome_iff_exists.mp some
  refine ⟨first, early, found, foundEq, ?_⟩
  have nonzero : value.isZero ≠ true := by
    rw [isZero, ne_eq, decide_eq_true_eq]
    exact positive.ne'
  rw [shortest, if_neg nonzero, search]
  simp only [foundEq, Option.getD_some]

/-! ## Few digits -/

section Few

variable {real other : ℚ} {grid : Int}

/-- Where fifteen digits reach, the steps of the grid are much larger than those of the numbers. -/
theorem ulp_lt_grid (normal : value.IsNormal) (covers : value.Covers real)
    (small : real < 10 ^ (grid + 15)) : 4 * value.ulp < 10 ^ grid := by
  have worth : value.worth = value.significand * value.ulp := rfl
  have cast : (2 : ℚ) ^ 52 ≤ value.significand := by exact_mod_cast normal.1
  have scaled : (2 : ℚ) ^ 52 * value.ulp ≤ value.worth :=
    mul_le_mul_of_nonneg_right cast value.ulp_pos.le
  have near := covers.near.1
  rw [zpow_add₀ (by norm_num)] at small
  norm_num at small scaled
  linarith [value.ulp_pos]

/-- Only one point of such a grid rounds to the number. -/
theorem covers_unique (normal : value.IsNormal) {left right : Nat}
    (leftCovers : value.Covers (left * 10 ^ grid)) (rightCovers : value.Covers (right * 10 ^ grid))
    (small : (left : ℚ) * 10 ^ grid < 10 ^ (grid + 15)) : left = right := by
  have sparse := ulp_lt_grid normal leftCovers small
  have step := ten_zpow_pos grid
  have leftNear := leftCovers.near
  have rightNear := rightCovers.near
  have ulp := value.ulp_pos
  have less : (left : ℚ) * 10 ^ grid < (right + 1) * 10 ^ grid := by linarith
  have more : (right : ℚ) * 10 ^ grid < (left + 1) * 10 ^ grid := by linarith
  have least := lt_of_mul_lt_mul_right less step.le
  have most := lt_of_mul_lt_mul_right more step.le
  have leftLe : left < right + 1 := by exact_mod_cast least
  have rightLe : right < left + 1 := by exact_mod_cast most
  omega

variable {digits : Nat} {exponent : Int}

/-- The grid on which a decimal of few digits is found is its own, or the next finer one for a power
of ten that is the upper end of the magnitude. -/
theorem exists_grid (normal : value.IsNormal) (positive : 0 < digits) (few : digits < tenTo 15)
    (covers : value.Covers (digits * 10 ^ exponent)) :
    ∃ count < 17, (value.magnitude - (count + 1 : Nat) = exponent ∨
      value.magnitude - (count + 1 : Nat) = exponent - 1 ∧ digits = 1) := by
  have step := ten_zpow_pos exponent
  have ten : (1 : ℚ) < 10 := by norm_num
  have fewCast : (digits : ℚ) + 1 ≤ 10 ^ 15 := by exact_mod_cast few
  have someCast : (1 : ℚ) ≤ digits := by exact_mod_cast positive
  have top : (10 : ℚ) ^ (exponent + 15) = 10 ^ 15 * 10 ^ exponent := by
    rw [zpow_add₀ (by norm_num), mul_comm]
    norm_cast
  have room : ((digits : ℚ) + 1) * 10 ^ exponent ≤ 10 ^ (exponent + 15) := by
    rw [top]
    exact mul_le_mul_of_nonneg_right fewCast step.le
  have some : 10 ^ exponent ≤ (digits : ℚ) * 10 ^ exponent := le_mul_of_one_le_left step.le someCast
  have sparse := ulp_lt_grid normal covers (by linarith)
  have near := covers.near
  obtain ⟨least, most⟩ := magnitude_bounds normal.significand_pos
  have lower : value.magnitude - 1 < exponent + 15 := by
    refine (zpow_lt_zpow_iff_right₀ ten).mp (least.trans_lt ?_)
    linarith
  have upper : exponent - 1 < value.magnitude := by
    refine (zpow_lt_zpow_iff_right₀ ten).mp (lt_trans ?_ most)
    rw [zpow_sub_one₀ (by norm_num)]
    linarith
  by_cases inside : exponent < value.magnitude
  · exact ⟨(value.magnitude - exponent - 1).toNat, by omega, .inl (by omega)⟩
  · refine ⟨0, by decide, .inr ⟨by omega, ?_⟩⟩
    have below : value.worth < 10 ^ exponent :=
      most.trans_le (zpow_le_zpow_right₀ ten.le (by omega))
    have two : (digits : ℚ) < 2 := by
      refine lt_of_mul_lt_mul_right ?_ step.le
      linarith
    have less : digits < 2 := by exact_mod_cast two
    omega

/-- Carrying a zero into the exponent does not change the worth. -/
theorem Digits.worth_carry (decimal : Digits) : decimal.carry.worth = decimal.worth := by
  unfold carry
  split
  · next ten =>
    rw [worth, worth, ten, zpow_add_one₀ (by norm_num)]
    norm_num
    ring
  · rfl

/-- Carrying does not lower the exponent. -/
theorem Digits.exponent_le_carry (decimal : Digits) :
    decimal.exponent ≤ decimal.carry.exponent := by
  unfold carry
  split
  · exact Int.le.intro 1 rfl
  · exact le_refl _

/-- A decimal on a coarser grid, in steps of a finer one. -/
theorem Digits.worth_on_grid {decimal : Digits} {finer : Int} (coarser : finer ≤ decimal.exponent) :
    decimal.worth = (decimal.digits * tenTo (decimal.exponent - finer).toNat : Nat) *
      10 ^ finer := by
  have split : decimal.exponent = ((decimal.exponent - finer).toNat : Int) + finer := by omega
  rw [worth, Nat.cast_mul, cast_tenTo, mul_assoc]
  nth_rewrite 1 [split]
  rw [zpow_add₀ (by norm_num), zpow_natCast]

/-- The decimal in steps of the grid on which it is found. -/
theorem exists_steps (normal : value.IsNormal) (positive : 0 < digits) (few : digits < tenTo 15)
    (covers : value.Covers (digits * 10 ^ exponent)) :
    ∃ count < 17, ∃ grid, value.magnitude - (count + 1 : Nat) = grid ∧
      ∃ own : Nat, (digits : ℚ) * 10 ^ exponent = own * 10 ^ grid ∧ own < tenTo 15 ∧
        (exponent = grid ∨ exponent = grid + 1 ∧ own = 10) := by
  obtain ⟨count, less, same | ⟨finer, one⟩⟩ := exists_grid normal positive few covers
  · exact ⟨count, less, exponent, same, digits, rfl, few, .inl rfl⟩
  · refine ⟨count, less, exponent - 1, finer, 10, ?_, by decide, .inr ⟨by omega, rfl⟩⟩
    rw [one, zpow_sub_one₀ (by norm_num)]
    norm_num
    ring

/-- What is worth ten steps of a grid and lies on it or a coarser one is written without the last
zero. -/
theorem Digits.lt_exponent_carry {decimal : Digits} (coarser : grid ≤ decimal.exponent)
    (ten : decimal.digits * tenTo (decimal.exponent - grid).toNat = 10) :
    grid + 1 ≤ decimal.carry.exponent := by
  by_cases here : decimal.exponent = grid
  · rw [here, sub_self, Int.toNat_zero, tenTo_zero, Nat.mul_one] at ten
    rw [carry, if_pos ten, here]
  · exact le_trans (by omega) decimal.exponent_le_carry

/-- A decimal of at most fifteen digits is the shortest one of the number that it rounds to. -/
theorem shortest_of_covers (tie : Tie) (normal : value.IsNormal) (positive : 0 < digits)
    (few : digits < tenTo 15) (covers : value.Covers (digits * 10 ^ exponent)) :
    (value.shortest tie).worth = digits * 10 ^ exponent ∧
    exponent ≤ (value.shortest tie).exponent := by
  have some := normal.significand_pos
  obtain ⟨count, less, grid, gridEq, own, ownEq, ownFew, ownCases⟩ :=
    exists_steps normal positive few covers
  rw [ownEq] at covers ⊢
  have step := ten_zpow_pos grid
  have small : (own : ℚ) * 10 ^ grid < 10 ^ (grid + 15) := by
    rw [zpow_add₀ (by norm_num), mul_comm]
    exact mul_lt_mul_of_pos_left (by exact_mod_cast ownFew) step
  have sparse := ulp_lt_grid normal covers small
  have near := covers.near
  have hit : (value.onGrid? tie (value.magnitude - (count + 1 : Nat))).isSome := by
    rw [gridEq]
    exact onGrid?_isSome (by linarith [value.ulp_pos]) (by linarith [value.ulp_pos])
      ((readsAs_iff some _).mpr covers)
  obtain ⟨first, early, found, foundEq, chosen⟩ := exists_found some less hit
  obtain ⟨foundExponent, -, reads⟩ := neighbour_of_onGrid? foundEq
  have coarser : grid ≤ found.exponent := by omega
  have foundCovers := (readsAs_iff some found).mp reads
  rw [found.worth_on_grid coarser] at foundCovers
  -- Whatever the search finds first is a point of the decimal's grid too, so it is the decimal.
  have same := covers_unique normal covers foundCovers small
  rw [chosen, found.worth_carry, found.worth_on_grid coarser, ← same]
  refine ⟨rfl, ?_⟩
  rcases ownCases with equal | ⟨next, ten⟩
  · exact (le_of_eq_of_le equal coarser).trans found.exponent_le_carry
  · exact le_of_eq_of_le next (Digits.lt_exponent_carry coarser (same.symm.trans ten))

end Few

/-! ## Enough digits -/

/-- What lies inside of the interval of a number rounds to it, whether the ends do or not. -/
theorem covers_of_between {real : ℚ}
    (below : (value.significand - (value.quartersBelow : ℚ) / 4) * value.ulp < real)
    (above : real < (value.significand + 1 / 2) * value.ulp) : value.Covers real := by
  unfold Covers
  split
  · exact ⟨below.le, above.le⟩
  · exact ⟨below, above⟩

/-- Where seventeen digits reach, half a step is less than what the interval of a number has to
either side. -/
theorem half_step_lt {grid : Int} (normal : value.IsNormal)
    (large : (10 : ℚ) ^ 16 * 10 ^ grid ≤ value.worth) :
    10 ^ grid / 2 < value.ulp / 2 ∧ 10 ^ grid / 2 < (value.quartersBelow : ℚ) / 4 * value.ulp := by
  have ulp := value.ulp_pos
  have worth : value.worth = value.significand * value.ulp := rfl
  have short : (value.significand : ℚ) < 2 ^ 53 := by exact_mod_cast normal.2
  have wide : value.worth < 2 ^ 53 * value.ulp := mul_lt_mul_of_pos_right short ulp
  have above : 10 ^ grid / 2 < value.ulp / 2 := by
    norm_num at wide large
    linarith
  refine ⟨above, ?_⟩
  unfold quartersBelow
  split
  · next edge =>
    rw [worth, edge.1, cast_twoTo] at large
    norm_num at large ⊢
    linarith
  · norm_num
    linarith

/-- On the grid of seventeen digits the nearer neighbour of a number reads back. -/
theorem onGrid?_seventeen (tie : Tie) (normal : value.IsNormal) :
    (value.onGrid? tie (value.magnitude - 17)).isSome := by
  have some := normal.significand_pos
  obtain ⟨least, -⟩ := magnitude_bounds some
  have ulp := value.ulp_pos
  have worth : value.worth = value.significand * value.ulp := rfl
  obtain ⟨grid, gridEq⟩ : ∃ grid : Int, value.magnitude - 17 = grid := ⟨_, rfl⟩
  have step := ten_zpow_pos grid
  have large : (10 : ℚ) ^ 16 * 10 ^ grid ≤ value.worth := by
    rw [mul_comm, ← zpow_natCast, ← zpow_add₀ (by norm_num)]
    exact le_trans (le_of_eq (by congr 1; omega)) least
  obtain ⟨aboveHalf, belowHalf⟩ := half_step_lt normal large
  rw [gridEq]
  obtain ⟨stepsLe, ltSteps⟩ := value.steps_bounds grid
  have half : value.worth - value.steps grid * 10 ^ grid ≤ 10 ^ grid / 2 ∨
      (value.steps grid + 1) * 10 ^ grid - value.worth ≤ 10 ^ grid / 2 := by
    by_contra apart
    rw [not_or, not_le, not_le] at apart
    linarith
  rcases half with nearer | nearer
  · refine onGrid?_isSome ltSteps (by linarith) ((readsAs_iff some _).mpr (covers_of_between ?_ ?_))
    · change _ < (value.steps grid : ℚ) * 10 ^ grid
      linarith
    · change (value.steps grid : ℚ) * 10 ^ grid < _
      linarith
  · have cast : ((value.steps grid + 1 : Nat) : ℚ) = value.steps grid + 1 := by push_cast; rfl
    refine onGrid?_isSome ?_ ?_
      ((readsAs_iff some ⟨value.steps grid + 1, grid⟩).mpr (covers_of_between ?_ ?_))
    · rw [cast]
      linarith
    · rw [cast]
      linarith
    · change _ < ((value.steps grid + 1 : Nat) : ℚ) * 10 ^ grid
      rw [cast]
      linarith
    · change ((value.steps grid + 1 : Nat) : ℚ) * 10 ^ grid < _
      rw [cast]
      linarith

/-- The shortest decimal has at most seventeen digits, or is one of that many zeros. -/
theorem shortest_digits_le (tie : Tie) (normal : value.IsNormal) :
    (value.shortest tie).digits ≤ tenTo 17 ∧
    value.magnitude - 17 ≤ (value.shortest tie).exponent := by
  have some := normal.significand_pos
  have hit : (value.onGrid? tie (value.magnitude - (16 + 1 : Nat))).isSome :=
    onGrid?_seventeen tie normal
  obtain ⟨first, early, found, foundEq, chosen⟩ := exists_found some (by decide) hit
  obtain ⟨foundExponent, neighbour, -⟩ := neighbour_of_onGrid? foundEq
  have stepsLt : value.steps (value.magnitude - (first + 1 : Nat)) < tenTo 17 := by
    obtain ⟨stepsLe, -⟩ := value.steps_bounds (value.magnitude - (first + 1 : Nat))
    have step := ten_zpow_pos (value.magnitude - (first + 1 : Nat))
    have whole : (10 : ℚ) ^ value.magnitude =
        tenTo (first + 1) * 10 ^ (value.magnitude - (first + 1 : Nat)) := by
      rw [cast_tenTo, ← zpow_natCast, ← zpow_add₀ (by norm_num)]
      congr 1
      omega
    have less := stepsLe.trans_lt (magnitude_bounds some).2
    rw [whole] at less
    have few : value.steps (value.magnitude - (first + 1 : Nat)) < tenTo (first + 1) := by
      exact_mod_cast lt_of_mul_lt_mul_right less step.le
    exact Nat.lt_of_lt_of_le few (Nat.pow_le_pow_right (by decide) (by omega))
  rw [chosen]
  constructor
  · have carried : found.carry.digits ≤ found.digits := by
      unfold Digits.carry
      split
      · next ten =>
        change 1 ≤ found.digits
        omega
      · exact Nat.le_refl _
    omega
  · have carried := found.exponent_le_carry
    omega

end Prepaid.Binary64
