import Mathlib.Order.Compare
import Prepaid.Proofs.Money.Nearest

/-!
# Exact arithmetic of money

A sum or a difference counts exactly the number that it should be, with both of its
places, if and only if that number is at most `Money.maxCents`, whatever scales the
operands are stored with. Adding and taking away in place come to the same, and money
compares as the numbers do.

It is the result that has to be in range, the operands may be beyond it. So taking away
what has been added needs the range twice, for the sum and for what there was before.
-/

namespace Prepaid

/-- Decimals compare as the numbers that they are, whatever their scales. -/
theorem Decimal.compare_eq_compare_worth (left right : Decimal) :
    left.compare right = Ord.compare left.worth right.worth := by
  have leftPos : (0 : ℚ) < tenTo left.scale := by exact_mod_cast tenTo_pos _
  have rightPos : (0 : ℚ) < tenTo right.scale := by exact_mod_cast tenTo_pos _
  -- What is compared are both numbers with the places of both added.
  have leftScaled : ((left.mantissa * tenTo right.scale : Int) : ℚ) =
      left.worth * (tenTo left.scale * tenTo right.scale) := by
    rw [worth]
    push_cast
    field_simp
  have rightScaled : ((right.mantissa * tenTo left.scale : Int) : ℚ) =
      right.worth * (tenTo left.scale * tenTo right.scale) := by
    rw [worth]
    push_cast
    field_simp
  rw [compare, ← cmp_eq_compare, ← cmp_eq_compare, ← (Int.cast_strictMono (R := ℚ)).cmp_map_eq,
    leftScaled, rightScaled, cmp_mul_pos_right (mul_pos leftPos rightPos)]

namespace Money

variable {money left right sum difference : Money} {number : ℚ}

/-! ## Comparing -/

/-- Amounts are compared by their worth. -/
theorem compare_eq_compare_worth (left right : Money) :
    left.compare right = Ord.compare left.value.worth right.value.worth := by
  rw [compare, worth_eq_cents, worth_eq_cents, ← cmp_eq_compare, ← cmp_eq_compare, div_eq_mul_inv,
    div_eq_mul_inv, cmp_mul_pos_right (by norm_num), Int.cast_strictMono.cmp_map_eq]

/-- Amounts compare as equal exactly if they are worth the same. -/
theorem compare_eq_iff_worth : left.compare right = .eq ↔ left.value.worth = right.value.worth := by
  rw [compare_eq_compare_worth, compare_eq_iff_eq]

/-- The order of amounts is that of their worth. -/
theorem le_iff_worth : left ≤ right ↔ left.value.worth ≤ right.value.worth := by
  rw [worth_eq_cents, worth_eq_cents, div_le_div_iff_of_pos_right (by norm_num)]
  exact_mod_cast Iff.rfl

/-- An amount is negative exactly if its worth is. -/
theorem isNegative_iff_worth : money.isNegative = true ↔ money.value.worth < 0 := by
  rw [isNegative, decide_eq_true_iff, worth_eq_cents, div_lt_iff₀ (by norm_num), zero_mul]
  exact_mod_cast Iff.rfl

/-- Money that compares as the decimals do that it is stored as, and these as the numbers that they
are. -/
structure ComparesByWorth (left right : Money) : Prop where
  stored : left.compare right = left.value.compare right.value
  compare_eq : left.compare right = Ord.compare left.value.worth right.value.worth
  eq_iff : left.compare right = .eq ↔ left.value.worth = right.value.worth
  lt_iff : left < right ↔ left.value.worth < right.value.worth
  le_iff : left ≤ right ↔ left.value.worth ≤ right.value.worth
  negative_iff : left.isNegative = true ↔ left.value.worth < 0

/-- All comparisons of two amounts are those of their worth. -/
theorem comparesByWorth (left right : Money) : left.ComparesByWorth right where
  stored := by rw [compare_eq_compare_worth, Decimal.compare_eq_compare_worth]
  compare_eq := compare_eq_compare_worth left right
  eq_iff := compare_eq_iff_worth
  lt_iff := lt_iff_worth
  le_iff := le_iff_worth
  negative_iff := isNegative_iff_worth

/-! ## Results in range -/

/-- A number of at most so many hundredths as a coefficient can count. -/
def InRange (number : ℚ) : Prop :=
  |number| ≤ Decimal.maxCoefficient / 100

/-- A number of cents is in range exactly if its magnitude fits the coefficient. -/
theorem inRange_cents {cents : Int} : InRange (cents / 100) ↔ cents.natAbs ≤ maxCents := by
  rw [InRange, maxCents, Int.ofNat_le]
  exact_mod_cast Decimal.abs_hundredths_le_iff

/-- Money that is exactly a number of hundredths, and is stored with both of its places. -/
structure Counts (money : Money) (number : ℚ) : Prop where
  worth_eq : money.value.worth = number
  multiple : ∃ cents : ℤ, number = cents / 100
  scale_eq : money.value.scale = places

/-- With both places the coefficient is the number of hundredths. -/
theorem Counts.inRange (counts : money.Counts number) : InRange number := by
  have cents : money.cents = money.value.mantissa := by
    rw [Money.cents, counts.scale_eq, Nat.sub_self, tenTo_zero, Int.natCast_one, Int.mul_one]
  rw [← counts.worth_eq, worth_eq_cents, inRange_cents, cents, Decimal.natAbs_mantissa]
  exact_mod_cast money.value.coefficient_le

/-- A quantized amount whose cents are exact counts the number. -/
theorem Quantized.counts (quantized : money.Quantized) (exactly : number = money.cents / 100)
    (inRange : InRange number) : money.Counts number := by
  have worth : money.value.worth = number := by rw [worth_eq_cents, exactly]
  have shown := money.value.scale_quantize_iff
  rw [quantized, worth] at shown
  exact ⟨worth, ⟨money.cents, exactly⟩, shown.mpr inRange⟩

/-- A sum is quantized. -/
theorem quantized_of_add (added : left.add right = .ok sum) : sum.Quantized := by
  unfold add at added
  split at added
  · cases added
    exact quantized_ofDecimal _
  · cases added

/-- A difference is quantized. -/
theorem quantized_of_sub (subtracted : left.sub right = .ok difference) : difference.Quantized := by
  unfold sub at subtracted
  split at subtracted
  · cases subtracted
    exact quantized_ofDecimal _
  · cases subtracted

/-- A sum in range is computed, and is exact. -/
theorem add_counts (inRange : InRange (left.value.worth + right.value.worth)) :
    ∃ sum, left.add right = .ok sum ∧ sum.Counts (left.value.worth + right.value.worth) := by
  have exactly : left.value.worth + right.value.worth = (left.cents + right.cents : Int) / 100 := by
    rw [worth_eq_cents, worth_eq_cents, ← add_div, Int.cast_add]
  obtain ⟨sum, added, cents⟩ := add_exact (inRange_cents.mp (exactly ▸ inRange))
  rw [← cents] at exactly
  exact ⟨sum, added, (quantized_of_add added).counts exactly inRange⟩

/-- A difference in range is computed, and is exact. -/
theorem sub_counts (inRange : InRange (left.value.worth - right.value.worth)) :
    ∃ difference, left.sub right = .ok difference ∧
      difference.Counts (left.value.worth - right.value.worth) := by
  have exactly : left.value.worth - right.value.worth = (left.cents - right.cents : Int) / 100 := by
    rw [worth_eq_cents, worth_eq_cents, ← sub_div, Int.cast_sub]
  obtain ⟨difference, subtracted, cents⟩ := sub_exact (inRange_cents.mp (exactly ▸ inRange))
  rw [← cents] at exactly
  exact ⟨difference, subtracted, (quantized_of_sub subtracted).counts exactly inRange⟩

/-- What is taken away from a sum that is exact leaves what there was before. -/
theorem Counts.sub_restores (counts : sum.Counts (left.value.worth + right.value.worth))
    (inRange : InRange left.value.worth) :
    ∃ restored, sum.sub right = .ok restored ∧ restored.Counts left.value.worth := by
  have before : sum.value.worth - right.value.worth = left.value.worth := by
    rw [counts.worth_eq, add_sub_cancel_right]
  rw [← before] at inRange ⊢
  exact sub_counts inRange

/-! ## Sums in place -/

section InPlace

variable {compute : Money → Except Overflow Money} {before after : Money} {overflow : Overflow}

/-- An operation that stores what is computed from a sum in its place, and keeps the sum where this
overflows. -/
structure Replaces (operation : EStateM Overflow Money Unit)
    (compute : Money → Except Overflow Money) : Prop where
  stores : ∀ before after, operation.run before = .ok () after ↔ compute before = .ok after
  keeps : ∀ before after overflow,
    operation.run before = .error overflow after ↔ compute before = .error overflow ∧ after = before

/-- A computation that succeeds replaces the amount. -/
theorem run_inPlace_of_ok (computed : compute before = .ok after) :
    (inPlace compute).run before = .ok () after := by
  simp only [inPlace, EStateM.run_bind, EStateM.run_get, computed, EStateM.run_set]

/-- A computation that overflows leaves the amount as it was. -/
theorem run_inPlace_of_error (computed : compute before = .error overflow) :
    (inPlace compute).run before = .error overflow before := by
  simp only [inPlace, EStateM.run_bind, EStateM.run_get, computed, EStateM.run_throw]

/-- Working in place is working on a copy and storing it. -/
theorem inPlace_replaces (compute : Money → Except Overflow Money) :
    Replaces (inPlace compute) compute := by
  constructor
  · intro before after
    cases computed : compute before with
    | ok result => simp [run_inPlace_of_ok computed]
    | error overflow => simp [run_inPlace_of_error computed]
  · intro before after overflow
    cases computed : compute before with
    | ok result => simp [run_inPlace_of_ok computed]
    | error cause => simp [run_inPlace_of_error computed, eq_comm]

end InPlace

/-! ## Arithmetic in range -/

/-- Arithmetic is exact in the whole range of both places and nowhere else shows them. What is taken
away again leaves what there was before, which need not have been stored in the same way. -/
theorem arithmetic_exact (left right : Money) :
    ((∃ sum, left.add right = .ok sum ∧ sum.Counts (left.value.worth + right.value.worth)) ↔
      InRange (left.value.worth + right.value.worth)) ∧
    ((∃ difference, left.sub right = .ok difference ∧
      difference.Counts (left.value.worth - right.value.worth)) ↔
      InRange (left.value.worth - right.value.worth)) ∧
    (InRange left.value.worth → InRange (left.value.worth + right.value.worth) →
      ∃ sum restored, left.add right = .ok sum ∧ sum.sub right = .ok restored ∧
        restored.Counts left.value.worth ∧ restored.compare left = .eq) ∧
    Replaces (increase right) (·.add right) ∧
    Replaces (decrease right) (·.sub right) ∧
    left.ComparesByWorth right := by
  refine ⟨⟨?added, add_counts⟩, ⟨?subtracted, sub_counts⟩, ?restored, inPlace_replaces _,
    inPlace_replaces _, comparesByWorth left right⟩
  case added =>
    rintro ⟨sum, _, counts⟩
    exact counts.inRange
  case subtracted =>
    rintro ⟨difference, _, counts⟩
    exact counts.inRange
  case restored =>
    intro small inRange
    obtain ⟨sum, added, counts⟩ := add_counts inRange
    obtain ⟨restored, subtracted, exactly⟩ := counts.sub_restores small
    exact ⟨sum, restored, added, subtracted, exactly, compare_eq_iff_worth.mpr exactly.worth_eq⟩

/-- Two debts that come to the largest one in range: a cent less than that, and half a cent, which
counts as a whole one. -/
theorem largest_debt_exact :
    let debt := ofDecimal
      { negative := true, coefficient := 79228162514264337593543950334, scale := 2 }
    let halfCent := ofDecimal { negative := true, coefficient := 5, scale := 3 }
    InRange debt.value.worth ∧ InRange (debt.value.worth + halfCent.value.worth) ∧
      ∃ sum restored, debt.add halfCent = .ok sum ∧ sum.Counts (-Decimal.maxCoefficient / 100) ∧
        sum.sub halfCent = .ok restored ∧ restored.compare debt = .eq := by
  intro debt halfCent
  have debtCents : debt.cents = -79228162514264337593543950334 := by decide
  have halfCents : halfCent.cents = -1 := by decide
  have total : debt.value.worth + halfCent.value.worth =
      (-79228162514264337593543950335 : Int) / 100 := by
    rw [worth_eq_cents, worth_eq_cents, debtCents, halfCents]
    norm_num
  have small : InRange debt.value.worth := by
    rw [worth_eq_cents, inRange_cents, debtCents]
    decide
  have inRange : InRange (debt.value.worth + halfCent.value.worth) := by
    rw [total, inRange_cents]
    decide
  obtain ⟨exactly, _, restores, _⟩ := arithmetic_exact debt halfCent
  obtain ⟨sum, added, counts⟩ := exactly.mpr inRange
  obtain ⟨again, restored, addedToo, subtracted, _, same⟩ := restores small inRange
  cases added.symm.trans addedToo
  refine ⟨small, inRange, sum, restored, added, ?counted, subtracted, same⟩
  case counted =>
    rw [total] at counts
    exact_mod_cast counts

end Money

end Prepaid
