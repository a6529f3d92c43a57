/-!
# Rounding a quotient

Division of naturals and integers to the nearest whole number, with the rule for
exact halves as a parameter. The bounds say that rounding moves a value by at
most half a unit and never past the next smaller power of the divisor.
-/

namespace Prepaid

/-- What becomes of a quotient that lies exactly halfway between two naturals. -/
inductive Tie where
  | awayFromZero
  | toEven
  deriving DecidableEq, Repr

/-- The natural nearest to `n / d`; a half goes as `tie` says. -/
def roundDiv (tie : Tie) (n d : Nat) : Nat :=
  if 2 * (n % d) < d then n / d
  else if 2 * (n % d) = d ∧ tie = .toEven ∧ n / d % 2 = 0 then n / d
  else n / d + 1

/-- The integer nearest to `m / d`; the sign takes no part in the rounding. -/
def roundQuotient (tie : Tie) (m : Int) (d : Nat) : Int :=
  if m < 0 then -(roundDiv tie m.natAbs d : Int) else roundDiv tie m.natAbs d

/-- A rounded quotient passes the quotient by one at most. -/
theorem roundDiv_le_succ (tie : Tie) (n d : Nat) : roundDiv tie n d ≤ n / d + 1 := by
  unfold roundDiv
  split <;> try split
  all_goals omega

/-- A rounded quotient does not fall below the quotient. -/
theorem le_roundDiv (tie : Tie) (n d : Nat) : n / d ≤ roundDiv tie n d := by
  unfold roundDiv
  split <;> try split
  all_goals omega

/-- Rounding after a division by at least two never grows the numerator. -/
theorem roundDiv_le_self (tie : Tie) (n d : Nat) (two_le : 2 ≤ d) : roundDiv tie n d ≤ n := by
  by_cases small : n < d
  · unfold roundDiv
    rw [Nat.mod_eq_of_lt small, Nat.div_eq_of_lt small]
    split <;> try split
    all_goals omega
  · have half : n / d ≤ n / 2 := Nat.div_le_div_left two_le (by omega)
    have next := roundDiv_le_succ tie n d
    omega

/-- Magnitudes are rounded alike on both sides of zero. -/
theorem natAbs_roundQuotient (tie : Tie) (m : Int) (d : Nat) :
    (roundQuotient tie m d).natAbs = roundDiv tie m.natAbs d := by
  unfold roundQuotient
  split <;> simp

/-- Division by one rounds nothing. -/
@[simp] theorem roundDiv_one (tie : Tie) (n : Nat) : roundDiv tie n 1 = n := by
  simp [roundDiv, Nat.mod_one]

/-- There is nothing to round in a whole number. -/
@[simp] theorem roundQuotient_one (tie : Tie) (m : Int) : roundQuotient tie m 1 = m := by
  unfold roundQuotient
  rw [roundDiv_one]
  split <;> omega

end Prepaid
