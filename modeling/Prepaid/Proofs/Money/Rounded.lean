import Mathlib.Data.Nat.Find
import Prepaid.Proofs.Money.Exact

/-!
# Rounded sums

Beyond `Money.maxCents` a sum loses its last places. `Money.Stores` says what becomes
of it: it is rounded to the finest unit with which its coefficient fits, the even
neighbour being taken halfway between two. Rounding keeps the order of two sums, but
not a strict difference, so that an amount can be available of which a part is not
there; `Money.Stores.current_lt_iff` says when.
-/

namespace Prepaid

/-- An integer nearest to a quotient. Of two that are equally near it is the even one. -/
structure NearestEven (m : Int) (d : Nat) (q : Int) : Prop where
  above : 2 * m ≤ 2 * (q * d) + d
  below : 2 * (q * d) ≤ 2 * m + d
  even : 2 * m = 2 * (q * d) + d ∨ 2 * (q * d) = 2 * m + d → q % 2 = 0

/-- Rounding a quotient of naturals finds the nearest whole number, a tie going to the even one. -/
theorem roundDiv_nearestEven (n : Nat) {d : Nat} (positive : 0 < d) :
    NearestEven n d (roundDiv .toEven n d) := by
  have split := Nat.div_add_mod' n d
  have small := Nat.mod_lt n positive
  have rounded : roundDiv .toEven n d =
      if 2 * (n % d) < d ∨ 2 * (n % d) = d ∧ n / d % 2 = 0 then n / d else n / d + 1 := by
    unfold roundDiv
    split <;> split <;> grind
  rw [rounded]
  generalize n / d = q at split
  generalize n % d = r at split small
  have whole : ((q * d : Nat) : Int) = (q : Int) * d := Int.natCast_mul q d
  have next : ((q + 1 : Nat) : Int) * d = (q : Int) * d + d := by
    rw [Int.natCast_succ, Int.add_mul, Int.one_mul]
  split
  · exact ⟨by omega, by omega, by omega⟩
  · exact ⟨by omega, by omega, by omega⟩

/-- Rounding a signed quotient that is not negative finds the nearest whole number, a tie going to
the even one. -/
theorem roundQuotient_nearestEven {m : Int} (nonneg : 0 ≤ m) {d : Nat} (positive : 0 < d) :
    NearestEven m d (roundQuotient .toEven m d) := by
  obtain ⟨n, rfl⟩ := Int.eq_ofNat_of_zero_le nonneg
  rw [roundQuotient, if_neg (Int.not_lt.mpr nonneg), Int.natAbs_natCast]
  exact roundDiv_nearestEven n positive

/-- Of two quotients the larger one is not rounded to less. -/
theorem NearestEven.mono {left right leftQ rightQ : Int} {d : Nat} (positive : 0 < d)
    (small : NearestEven left d leftQ) (large : NearestEven right d rightQ) (le : left ≤ right) :
    leftQ ≤ rightQ := by
  refine Int.not_lt.mp fun more => ?_
  have next : (rightQ + 1) * (d : Int) ≤ leftQ * d :=
    Int.mul_le_mul_of_nonneg_right (by omega) (by omega)
  rw [Int.add_mul, Int.one_mul] at next
  have below := small.below
  have above := large.above
  -- Both quotients lie halfway between the same two neighbours, of which only one is even.
  have leftEven := small.even (.inr (by omega))
  have rightEven := large.even (.inl (by omega))
  have same : leftQ * (d : Int) = (rightQ + 1) * d := by
    rw [Int.add_mul, Int.one_mul]
    omega
  have neighbours : leftQ = rightQ + 1 := Int.eq_of_mul_eq_mul_right (by omega) same
  omega

/-- A divisor that the number shares with the quotient makes no difference. -/
theorem roundDiv_mul (tie : Tie) (n d : Nat) {k : Nat} (positive : 0 < k) :
    roundDiv tie (n * k) (d * k) = roundDiv tie n d := by
  have less : 2 * (n % d * k) < d * k ↔ 2 * (n % d) < d := by
    rw [← Nat.mul_assoc, Nat.mul_lt_mul_right positive]
  have same : 2 * (n % d * k) = d * k ↔ 2 * (n % d) = d := by
    rw [← Nat.mul_assoc, Nat.mul_left_inj (Nat.ne_of_gt positive)]
  simp only [roundDiv, Nat.mul_mod_mul_right, Nat.mul_div_mul_right n d positive, less, same]

/-- A common factor does not change a rounded quotient. -/
theorem roundQuotient_mul (tie : Tie) (m : Int) (d : Nat) {k : Nat} (positive : 0 < k) :
    roundQuotient tie (m * k) (d * k) = roundQuotient tie m d := by
  have sign : m * k < 0 ↔ m < 0 := by
    rw [← Int.not_le, Int.mul_nonneg_iff_of_pos_right (by omega), Int.not_le]
  simp only [roundQuotient, sign, Int.natAbs_mul, Int.natAbs_natCast, roundDiv_mul tie _ d positive]

/-- What divides without a rest is not rounded. -/
theorem roundQuotient_mul_self (tie : Tie) (m : Int) {d : Nat} (positive : 0 < d) :
    roundQuotient tie (m * d) d = m := by
  have scaled := roundQuotient_mul tie m 1 positive
  rwa [Nat.one_mul, roundQuotient_one] at scaled

/-- Rounding does not make a quotient negative. -/
theorem roundQuotient_nonneg (tie : Tie) {m : Int} (nonneg : 0 ≤ m) (d : Nat) :
    0 ≤ roundQuotient tie m d := by
  rw [roundQuotient, if_neg (Int.not_lt.mpr nonneg)]
  exact Int.natCast_nonneg _

namespace Money

/-- `result` is what a number of cents that is not negative becomes when it is stored: rounded to
the finest unit, of `10 ^ lost` cents, with which its coefficient fits. -/
structure Stores (cents : Int) (lost : Nat) (result : Int) : Prop where
  places : lost ≤ Money.places
  fits : roundQuotient .toEven cents (tenTo lost) ≤ maxCents
  finest : ∀ fewer < lost, maxCents < roundQuotient .toEven cents (tenTo fewer)
  result_eq : result = roundQuotient .toEven cents (tenTo lost) * tenTo lost

end Money

namespace Decimal

/-- No place is dropped unless the number does not fit with it. -/
theorem fit?_finest {mantissa : Int} {scale : Nat} {value : Decimal} (few : scale ≤ maxScale)
    (fitted : fit? mantissa scale = some value) :
    ∃ dropped ≤ scale, value.mantissa = roundQuotient .toEven mantissa (tenTo dropped) ∧
      value.scale = scale - dropped ∧
      ∀ fewer < dropped, maxCoefficient <
        (roundQuotient .toEven mantissa (tenTo fewer)).natAbs := by
  obtain ⟨front, dropped, back, range, made, tooLarge⟩ := List.findSome?_eq_some_iff.mp fitted
  have within : dropped < scale + 1 := by
    rw [← List.mem_range, range]
    simp
  obtain ⟨mantissaEq, scaleEq⟩ := mantissa_ofMantissa? made
  refine ⟨dropped, by omega, mantissaEq, scaleEq, ?_⟩
  intro fewer less
  have ordered := List.pairwise_lt_range (n := scale + 1)
  have member : fewer ∈ List.range (scale + 1) := List.mem_range.mpr (by omega)
  rw [range] at ordered member
  have behind : ∀ later ∈ back, dropped < later :=
    fun _ => List.rel_of_pairwise_cons (List.pairwise_append.mp ordered).2.1
  have ahead : fewer ∈ front := by
    rcases List.mem_append.mp member with found | found
    · exact found
    · rcases List.mem_cons.mp found with rfl | found
      · omega
      · have := behind fewer found
        omega
  have refused := tooLarge fewer ahead
  unfold ofMantissa? at refused
  split at refused
  · cases refused
  · next large => omega

/-- What fits into a decimal is stored as it is. -/
theorem stores_hundredths (value : Decimal) (few : value.scale ≤ Money.places)
    (nonneg : 0 ≤ value.mantissa) :
    ∃ lost, Money.Stores value.hundredths lost value.hundredths := by
  -- With places that the decimal lacks it loses nothing.
  have exactly : ∀ lost ≤ Money.places - value.scale, ∃ coefficient,
      value.hundredths = coefficient * tenTo lost ∧
        roundQuotient .toEven value.hundredths (tenTo lost) = coefficient := by
    intro lost less
    refine ⟨value.mantissa * tenTo (Money.places - value.scale - lost), ?_⟩
    have split : tenTo (Money.places - value.scale) =
        tenTo (Money.places - value.scale - lost) * tenTo lost := by
      rw [← tenTo_add]
      congr 1
      omega
    have whole : value.hundredths =
        value.mantissa * tenTo (Money.places - value.scale - lost) * tenTo lost := by
      rw [hundredths, split, Int.natCast_mul, Int.mul_assoc]
    exact ⟨whole, by rw [whole, roundQuotient_mul_self _ _ (tenTo_pos lost)]⟩
  have fits : roundQuotient .toEven value.hundredths (tenTo (Money.places - value.scale)) ≤
      Money.maxCents := by
    have bound : value.mantissa.natAbs ≤ maxCoefficient := by
      rw [natAbs_mantissa]
      exact value.coefficient_le
    rw [hundredths, roundQuotient_mul_self _ _ (tenTo_pos _)]
    change value.mantissa ≤ (maxCoefficient : Int)
    omega
  have some : ∃ lost, roundQuotient .toEven value.hundredths (tenTo lost) ≤ Money.maxCents :=
    ⟨_, fits⟩
  have least : Nat.find some ≤ Money.places - value.scale := Nat.find_min' some fits
  obtain ⟨coefficient, whole, rounded⟩ := exactly _ least
  refine ⟨Nat.find some, by omega, Nat.find_spec some, ?_, by rw [rounded]; exact whole⟩
  intro fewer less
  exact Int.not_le.mp (Nat.find_min some less)

/-- A number that is fitted into the range is stored. -/
theorem fit?_stores {mantissa : Int} {scale : Nat} {value : Decimal} (few : scale ≤ Money.places)
    (nonneg : 0 ≤ mantissa) (fitted : fit? mantissa scale = some value) :
    ∃ lost, Money.Stores (mantissa * tenTo (Money.places - scale)) lost value.hundredths := by
  obtain ⟨dropped, within, mantissaEq, scaleEq, finest⟩ :=
    fit?_finest (Nat.le_trans few (by decide)) fitted
  by_cases exactly : dropped = 0
  · subst exactly
    rw [tenTo_zero, roundQuotient_one] at mantissaEq
    have same : value.hundredths = mantissa * tenTo (Money.places - scale) := by
      rw [hundredths, mantissaEq, scaleEq, Nat.sub_zero]
    rw [← same]
    exact stores_hundredths value (by omega) (by omega)
  · have positive : 0 < dropped := by omega
    have shifted (lost : Nat) : roundQuotient .toEven (mantissa * tenTo (Money.places - scale))
        (tenTo (lost + (Money.places - scale))) = roundQuotient .toEven mantissa (tenTo lost) := by
      rw [tenTo_add, roundQuotient_mul _ _ _ (tenTo_pos _)]
    have tooLarge : ∀ fewer < dropped, Money.maxCents <
        roundQuotient .toEven mantissa (tenTo fewer) := by
      intro fewer less
      have large := finest fewer less
      have sign := roundQuotient_nonneg .toEven nonneg (tenTo fewer)
      change (maxCoefficient : Int) < _
      omega
    refine ⟨dropped + (Money.places - scale), by omega, ?_, ?_, ?_⟩
    · have bound := value.natAbs_mantissa
      have limit := value.coefficient_le
      rw [shifted, ← mantissaEq]
      change value.mantissa ≤ (maxCoefficient : Int)
      omega
    · intro fewer less
      by_cases behind : Money.places - scale ≤ fewer
      · obtain ⟨lost, rfl⟩ := Nat.exists_eq_add_of_le' behind
        rw [shifted]
        exact tooLarge lost (by omega)
      · -- Places that are only added are not rounded, so the number is at least as large.
        obtain ⟨more, split⟩ := Nat.exists_eq_add_of_le' (Nat.le_of_not_le behind)
        have whole := tooLarge 0 positive
        rw [tenTo_zero, roundQuotient_one] at whole
        rw [split, tenTo_add, Int.natCast_mul, ← Int.mul_assoc,
          roundQuotient_mul_self _ _ (tenTo_pos _)]
        have atLeast : mantissa * 1 ≤ mantissa * tenTo more :=
          Int.mul_le_mul_of_nonneg_left (by exact_mod_cast tenTo_pos more) nonneg
        omega
    · have places : Money.places - (scale - dropped) = dropped + (Money.places - scale) := by omega
      rw [shifted, ← mantissaEq, hundredths, scaleEq, places]

/-- The mantissa has the sign of the hundredths. -/
theorem mantissa_nonneg_of_hundredths {value : Decimal} (nonneg : 0 ≤ value.hundredths) :
    0 ≤ value.mantissa := by
  have positive : (0 : Int) < tenTo (Money.places - value.scale) := by exact_mod_cast tenTo_pos _
  exact Int.nonneg_of_mul_nonneg_left nonneg positive

/-- A sum is stored with as many places dropped as it takes to fit, half to even. -/
theorem add?_stores {left right sum : Decimal} (leftFew : left.scale ≤ Money.places)
    (rightFew : right.scale ≤ Money.places) (added : left.add? right = some sum)
    (nonneg : 0 ≤ left.hundredths + right.hundredths) :
    ∃ lost, Money.Stores (left.hundredths + right.hundredths) lost sum.hundredths := by
  have exactly := aligned_hundredths left right leftFew rightFew
  rcases add?_cases left right with ⟨empty, same⟩ | ⟨empty, same⟩ | same <;> rw [same] at added
  · cases added
    rw [hundredths_eq_zero empty, Int.zero_add] at nonneg ⊢
    exact stores_hundredths right rightFew (mantissa_nonneg_of_hundredths nonneg)
  · cases added
    rw [hundredths_eq_zero empty, Int.add_zero] at nonneg ⊢
    exact stores_hundredths left leftFew (mantissa_nonneg_of_hundredths nonneg)
  · have positive : (0 : Int) < tenTo (Money.places - max left.scale right.scale) := by
      exact_mod_cast tenTo_pos _
    rw [← exactly] at nonneg ⊢
    exact fit?_stores (Nat.max_le.mpr ⟨leftFew, rightFew⟩)
      (Int.nonneg_of_mul_nonneg_left nonneg positive) added

end Decimal

namespace Money

/-- Money is stored as it is. -/
theorem stores_cents {money : Money} (nonneg : 0 ≤ money.cents) :
    ∃ lost, Stores money.cents lost money.cents :=
  money.value.stores_hundredths money.places_le (mantissa_nonneg nonneg)

/-- A sum of amounts is stored in cents, the last places being lost if it does not fit. -/
theorem add_stores {left right sum : Money} (added : left.add right = .ok sum)
    (nonneg : 0 ≤ left.cents + right.cents) :
    ∃ lost, Stores (left.cents + right.cents) lost sum.cents := by
  unfold add at added
  split at added
  · next value valueEq =>
    cases added
    rw [cents_ofDecimal (Decimal.scale_add? left.places_le right.places_le valueEq)]
    exact Decimal.add?_stores left.places_le right.places_le valueEq nonneg
  · cases added

/-- A difference is stored alike. -/
theorem sub_stores {left right difference : Money} (subtracted : left.sub right = .ok difference)
    (enough : right.cents ≤ left.cents) :
    ∃ lost, Stores (left.cents - right.cents) lost difference.cents := by
  unfold sub Decimal.sub? at subtracted
  have few : right.value.neg.scale ≤ places := by
    rw [Decimal.scale_neg]
    exact right.places_le
  have worth : left.value.hundredths + right.value.neg.hundredths = left.cents - right.cents := by
    rw [Decimal.hundredths_neg]
    rfl
  split at subtracted
  · next value valueEq =>
    cases subtracted
    rw [cents_ofDecimal (Decimal.scale_add? left.places_le few valueEq), ← worth]
    refine Decimal.add?_stores left.places_le few valueEq ?_
    rw [worth]
    exact Int.sub_nonneg_of_le enough
  · cases subtracted

namespace Stores

variable {cents result left right leftResult rightResult : Int} {lost leftLost rightLost : Nat}

/-- The larger of two sums loses at least as many places. -/
theorem lost_mono (small : Stores left leftLost leftResult)
    (large : Stores right rightLost rightResult) (nonneg : 0 ≤ left) (le : left ≤ right) :
    leftLost ≤ rightLost := by
  refine Nat.not_lt.mp fun more => ?_
  have positive := tenTo_pos rightLost
  have tooLarge := small.finest rightLost more
  have rounded := (roundQuotient_nearestEven nonneg positive).mono positive
    (roundQuotient_nearestEven (Int.le_trans nonneg le) positive) le
  have fits := large.fits
  omega

/-- What is stored is a number of units, as near as can be to what is to be stored. -/
theorem near (stores : Stores cents lost result) (nonneg : 0 ≤ cents) :
    ∃ coefficient ≤ maxCents, result = coefficient * tenTo lost ∧
      NearestEven cents (tenTo lost) coefficient :=
  ⟨_, stores.fits, stores.result_eq, roundQuotient_nearestEven nonneg (tenTo_pos lost)⟩

/-- What loses a place is more than fits with it. -/
theorem beyond (stores : Stores cents lost result) (nonneg : 0 ≤ cents) {fewer : Nat}
    (less : fewer < lost) :
    (2 * maxCents + 1) * tenTo fewer ≤ 2 * cents := by
  have tooLarge := stores.finest fewer less
  have below := (roundQuotient_nearestEven nonneg (tenTo_pos fewer)).below
  have next : (maxCents + 1) * (tenTo fewer : Int) ≤
      roundQuotient .toEven cents (tenTo fewer) * tenTo fewer :=
    Int.mul_le_mul_of_nonneg_right (by omega) (Int.natCast_nonneg _)
  rw [Int.add_mul, Int.one_mul] at next ⊢
  rw [Int.mul_assoc]
  omega

/-- There are three grids: cents, tens of cents and hundreds of cents. -/
theorem grid (stores : Stores cents lost result) :
    lost = 0 ∧ tenTo lost = 1 ∨ lost = 1 ∧ tenTo lost = 10 ∨ lost = 2 ∧ tenTo lost = 100 := by
  have few : lost ≤ 2 := stores.places
  rcases lost with _ | _ | _ | more
  · exact .inl ⟨rfl, rfl⟩
  · exact .inr (.inl ⟨rfl, rfl⟩)
  · exact .inr (.inr ⟨rfl, rfl⟩)
  · omega

/-- Storing keeps the order of two sums. -/
theorem mono (small : Stores left leftLost leftResult) (large : Stores right rightLost rightResult)
    (nonneg : 0 ≤ left) (le : left ≤ right) : leftResult ≤ rightResult := by
  have lost := small.lost_mono large nonneg le
  have positive : 0 ≤ right := Int.le_trans nonneg le
  obtain ⟨leftCoefficient, leftFits, rfl, leftNear⟩ := small.near nonneg
  obtain ⟨rightCoefficient, rightFits, rfl, rightNear⟩ := large.near positive
  rcases Nat.eq_or_lt_of_le lost with same | more
  · subst same
    have ordered := leftNear.mono (tenTo_pos _) rightNear le
    exact Int.mul_le_mul_of_nonneg_right ordered (Int.natCast_nonneg _)
  · -- The smaller one is at most the largest coefficient of a finer grid, and the larger one is
    -- beyond that coefficient by half a unit of that grid.
    have limit : maxCents = 79228162514264337593543950335 := rfl
    have above := rightNear.above
    have one : tenTo 0 = 1 := rfl
    have ten : tenTo 1 = 10 := rfl
    rcases large.grid with ⟨rfl, unit⟩ | ⟨rfl, unit⟩ | ⟨rfl, unit⟩
    · omega
    · have beyond := large.beyond positive (Nat.lt_succ_self 0)
      obtain rfl : leftLost = 0 := by omega
      rw [unit] at above ⊢
      rw [one] at beyond ⊢
      omega
    · have beyond := large.beyond positive (Nat.lt_succ_self 1)
      rw [unit] at above ⊢
      rw [ten] at beyond
      rcases small.grid with ⟨rfl, leftUnit⟩ | ⟨rfl, leftUnit⟩ | ⟨rfl, leftUnit⟩
      · rw [leftUnit]
        omega
      · rw [leftUnit]
        omega
      · omega

end Stores

/-- A sum that is half a unit, of ten cents or of a hundred, beyond an odd number of units: it lies
halfway between two numbers of units, and of these the larger one is even. -/
def RoundsPast (cents sum : Int) : Prop :=
  ∃ unit ∈ [10, 100], 2 * (sum - cents) = unit ∧ cents % (2 * unit) = unit

instance (cents sum : Int) : Decidable (RoundsPast cents sum) :=
  inferInstanceAs
    (Decidable (∃ unit ∈ [10, 100], 2 * (sum - cents) = unit ∧ cents % (2 * unit) = unit))

/-- The two ways to be a tie, in whole cents. -/
theorem roundsPast_iff {cents sum : Int} : RoundsPast cents sum ↔
    2 * (sum - cents) = 10 ∧ cents % 20 = 10 ∨ 2 * (sum - cents) = 100 ∧ cents % 200 = 100 := by
  constructor
  · rintro ⟨unit, member, half, odd⟩
    simp only [List.mem_cons, List.not_mem_nil, or_false] at member
    rcases member with rfl | rfl
    · exact .inl ⟨half, odd⟩
    · exact .inr ⟨half, odd⟩
  · rintro (⟨half, odd⟩ | ⟨half, odd⟩)
    · exact ⟨10, by simp, half, odd⟩
    · exact ⟨100, by simp, half, odd⟩

namespace Stores

variable {current held amount available sum : Int} {lost leftLost sumLost : Nat}

/-- An amount that is available once the difference is rounded takes what is held past what there is
exactly if it is half a unit more than what is available, and the sum is rounded up. -/
theorem current_lt_iff (whole : Stores current lost current)
    (left : Stores (current - held) leftLost available) (added : Stores (held + amount) sumLost sum)
    (nonneg : 0 ≤ held) (within : held ≤ current) (positive : 0 < amount)
    (enough : amount ≤ available) :
    current < sum ↔ RoundsPast current (held + amount) := by
  have limit : maxCents = 79228162514264337593543950335 := rfl
  have leftMost : leftLost ≤ lost := left.lost_mono whole (by omega) (by omega)
  rw [roundsPast_iff]
  by_cases more : current < held + amount
  · have sumMost : lost ≤ sumLost := whole.lost_mono added (by omega) (by omega)
    have beyond : lost < sumLost → (2 * maxCents + 1) * tenTo lost ≤ 2 * (held + amount) :=
      added.beyond (by omega)
    obtain ⟨coefficient, fits, currentEq, _⟩ := whole.near (by omega)
    obtain ⟨leftCoefficient, _, leftEq, leftNear⟩ := left.near (by omega)
    obtain ⟨sumCoefficient, _, sumEq, sumNear⟩ := added.near (by omega)
    obtain ⟨leftAbove, leftBelow, _⟩ := leftNear
    obtain ⟨sumAbove, sumBelow, sumEven⟩ := sumNear
    -- What is left is linear once the grids are known. The sums that are not exact have coarser
    -- grids only if they are beyond the finer ones, which excludes most of the cases.
    rcases whole.grid with ⟨rfl, unit⟩ | ⟨rfl, unit⟩ | ⟨rfl, unit⟩ <;>
      rcases left.grid with ⟨rfl, leftUnit⟩ | ⟨rfl, leftUnit⟩ | ⟨rfl, leftUnit⟩ <;>
      rcases added.grid with ⟨rfl, sumUnit⟩ | ⟨rfl, sumUnit⟩ | ⟨rfl, sumUnit⟩ <;>
      simp only [unit, leftUnit, sumUnit] at * <;> omega
  · have kept := added.mono whole (by omega) (by omega)
    omega

end Stores

end Money

end Prepaid
