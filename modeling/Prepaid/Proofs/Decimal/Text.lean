import Prepaid.Decimal.Text
import Prepaid.Proofs.Text.Digits

/-!
# Written decimals

A written decimal shows all its places, so it is read back with the same coefficient
and the same scale. Only a zero with a minus sign is not: it comes back without the
sign, and the two are written differently.
-/

namespace Prepaid.Decimal

/-- A zero with a minus sign. -/
def isMinusZero (value : Decimal) : Bool :=
  value.negative && value.isZero

/-- The number as it is read back: a zero loses its sign. -/
def reread (value : Decimal) : Decimal :=
  { value with negative := value.negative && !value.isZero }

/-- Only minus zero does not come back as it was. -/
theorem reread_eq_self_iff {value : Decimal} : value.reread = value ↔
    value.isMinusZero = false := by
  obtain ⟨negative, coefficient, scale, _, _⟩ := value
  cases negative <;> simp [reread, isMinusZero]

/-- What comes back is never minus zero. -/
theorem isMinusZero_reread (value : Decimal) : value.reread.isMinusZero = false := by
  by_cases empty : value.coefficient = 0
  · simp [isMinusZero, reread, isZero, empty]
  · simp [isMinusZero, reread, isZero, empty]

/-- What comes back has the same mantissa. -/
@[simp] theorem mantissa_reread (value : Decimal) : value.reread.mantissa = value.mantissa := by
  by_cases empty : value.coefficient = 0
  · simp [mantissa, reread, empty]
  · simp [mantissa, reread, isZero, empty]

/-! ## Reading -/

namespace Reading

variable {negative : Bool} {coefficient places value : Nat} {seen : Bool} {digits : List Char}

/-- The digits in front of the point are read one after the other, as long as the coefficient has
room for them. -/
theorem run_whole (read : Text.positional? 10 Text.digit? coefficient digits = some value)
    (fits : value ≤ maxCoefficient) (rest : List Char) :
    run negative ⟨coefficient, 0, false, seen⟩ (digits ++ rest) =
      run negative ⟨value, 0, false, seen || !digits.isEmpty⟩ rest := by
  induction digits generalizing coefficient seen with
  | nil =>
    cases read
    simp
  | cons c digits ih =>
    rw [Text.positional?] at read
    split at read
    · next digit digitEq =>
      have room := Text.le_of_positional? (by decide) read
      rw [Nat.mul_comm] at read room
      rw [List.cons_append, run]
      simp only [Bool.false_and, Bool.false_eq_true, if_false, digitEq,
        if_pos (Nat.le_trans room fits)]
      rw [ih read, Bool.true_or, List.isEmpty_cons, Bool.not_false, Bool.or_true]
    · cases read

/-- The digits behind the point are counted as well. -/
theorem run_places (read : Text.positional? 10 Text.digit? coefficient digits = some value)
    (fits : value ≤ maxCoefficient) (few : places + digits.length ≤ maxScale) :
    run negative ⟨coefficient, places, true, true⟩ digits =
      ofMantissa? (if negative then -(value : Int) else value) (places + digits.length) := by
  induction digits generalizing coefficient places with
  | nil =>
    cases read
    rfl
  | cons c digits ih =>
    rw [Text.positional?] at read
    rw [List.length_cons] at few
    split at read
    · next digit digitEq =>
      have room := Text.le_of_positional? (by decide) read
      rw [Nat.mul_comm] at read room
      have unfilled : ¬ maxScale ≤ places := by omega
      rw [run]
      simp only [Bool.true_and, decide_eq_true_eq, if_neg unfilled, digitEq,
        if_pos (Nat.le_trans room fits), if_true]
      rw [ih read (by omega), List.length_cons, Nat.add_assoc, Nat.add_comm 1]
    · cases read

end Reading

/-- A decimal is made again from its signed coefficient and its scale, less the sign of a zero. -/
theorem ofMantissa?_reread (value : Decimal) :
    ofMantissa? (if value.negative then -(value.coefficient : Int) else value.coefficient)
      value.scale = some value.reread := by
  obtain ⟨negative, coefficient, scale, bound, few⟩ := value
  cases negative
  · simp [ofMantissa?, reread, bound, few]
  · simp [ofMantissa?, reread, isZero, bound, few, Nat.pos_iff_ne_zero]

/-- The characters behind the sign. -/
def unsignedChars (value : Decimal) : List Char :=
  value.digitParts.1 ++ if value.scale = 0 then [] else '.' :: value.digitParts.2

/-- A decimal is printed as its sign and what has no sign. -/
theorem toChars_eq (value : Decimal) :
    value.toChars = (if value.negative then ['-'] else []) ++ value.unsignedChars := by
  simp only [toChars, unsignedChars, List.append_assoc]

/-- The digits before and behind the point are those of the coefficient, padded to the scale. -/
theorem digitParts_append (value : Decimal) :
    value.digitParts.1 ++ value.digitParts.2 =
      Text.ofNatPadded (value.scale + 1) value.coefficient := by
  rw [digitParts, List.splitAt_eq]
  exact List.take_append_drop ..

/-- As many digits as the scale says stand behind the point. -/
theorem length_places (value : Decimal) : value.digitParts.2.length = value.scale := by
  have enough := Text.le_length_ofNatPadded (value.scale + 1) value.coefficient
  rw [digitParts, List.splitAt_eq, List.length_drop]
  omega

/-- There is a digit in front of the point. -/
theorem exists_whole (value : Decimal) : ∃ c rest, value.digitParts.1 = c :: rest ∧
    c.isDigit = true := by
  have enough := Text.le_length_ofNatPadded (value.scale + 1) value.coefficient
  have parts := congrArg List.length value.digitParts_append
  rw [List.length_append, length_places] at parts
  obtain ⟨c, rest, whole⟩ := List.exists_cons_of_length_pos (l := value.digitParts.1) (by omega)
  have listed : c ∈ Text.ofNatPadded (value.scale + 1) value.coefficient := by
    rw [← digitParts_append, whole]
    exact List.mem_cons_self
  exact ⟨c, rest, whole, Text.isDigit_ofNatPadded c listed⟩

/-- The unsigned part starts with a digit. -/
theorem exists_unsignedChars (value : Decimal) :
    ∃ c rest, value.unsignedChars = c :: rest ∧ c.isDigit = true := by
  obtain ⟨c, rest, whole, digit⟩ := value.exists_whole
  exact ⟨c, _, by rw [unsignedChars, whole, List.cons_append], digit⟩

/-- All digits of a decimal are within the precision. -/
theorem run_unsignedChars (value : Decimal) :
    ({} : Reading).run value.negative value.unsignedChars = some value.reread := by
  obtain ⟨c, others, whole, digit⟩ := value.exists_whole
  have all := Text.positional?_ofNatPadded (value.scale + 1) value.coefficient
  -- The digits in front of the point spell a number of their own, which is no larger than all of
  -- them.
  rw [← digitParts_append, Text.positional?_append, Option.bind_eq_some_iff] at all
  obtain ⟨front, wholeRead, placesRead⟩ := all
  have fits : front ≤ maxCoefficient :=
    Nat.le_trans (Text.le_of_positional? (by decide) placesRead) value.coefficient_le
  rw [unsignedChars, Reading.run_whole wholeRead fits, whole]
  by_cases integral : value.scale = 0
  · have none : value.digitParts.2 = [] :=
      List.eq_nil_of_length_eq_zero (by rw [length_places, integral])
    rw [none] at placesRead
    cases placesRead
    rw [if_pos integral, ← ofMantissa?_reread, integral]
    rfl
  · have few : 0 + value.digitParts.2.length ≤ maxScale := by
      rw [length_places, Nat.zero_add]
      exact value.scale_le
    rw [if_neg integral, ← ofMantissa?_reread]
    refine (Reading.run_places placesRead value.coefficient_le few).trans ?_
    rw [length_places, Nat.zero_add]

/-- A decimal is read back from its text; a zero loses its sign. -/
theorem ofText?_toText (value : Decimal) : ofText? value.toText = some value.reread := by
  have plain : ofPlainText? value.toChars = some value.reread := by
    -- What stands behind the sign starts with a digit, so it is not taken for a sign itself.
    obtain ⟨c, rest, written, digit⟩ := value.exists_unsignedChars
    have read := value.run_unsignedChars
    rw [toChars_eq]
    cases sign : value.negative <;> rw [sign] at read
    · rw [written] at read
      rw [if_neg Bool.false_ne_true, List.nil_append, written]
      unfold ofPlainText?
      split
      · next minus =>
        cases minus
        cases digit
      · next plus =>
        cases plus
        cases digit
      · exact read
    · exact read
  rw [ofText?, toText, String.toList_ofList, plain]
  rfl

/-- The lost sign shows in the text. -/
theorem toText_reread_eq_iff {value : Decimal} :
    value.reread.toText = value.toText ↔ value.isMinusZero = false := by
  constructor
  · intro same
    cases minus : value.isMinusZero
    · rfl
    · obtain ⟨signed, empty⟩ := Bool.and_eq_true_iff.mp minus
      obtain ⟨c, rest, written, digit⟩ := value.exists_unsignedChars
      have positive : value.reread.negative = false := by simp [reread, empty]
      have unsigned : value.reread.unsignedChars = c :: rest := written
      have chars : value.reread.toChars = value.toChars := String.ofList_injective same
      rw [toChars_eq, toChars_eq, positive, signed, unsigned, written] at chars
      cases chars
  · intro plain
    rw [reread_eq_self_iff.mpr plain]

end Prepaid.Decimal
