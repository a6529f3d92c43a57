import Prepaid.Binary64.Text
import Prepaid.Proofs.Binary64.Shortest
import Prepaid.Proofs.Text.Numeral

/-!
# Numerals and binary64 numbers

A numeral is read as the binary64 number that it rounds to, and the plain text of such a
number is a numeral that is worth what the shortest decimal is.
-/

namespace Prepaid.Binary64

/-! ## Reading numerals -/

/-- A decimal in the range of a decimal number rounds to a number with all significant bits. -/
theorem ofDecimal?_covers (negative : Bool) {digits : Nat} {exponent : Int} (positive : 0 < digits)
    (large : (10 : ℚ) ^ (-28 : Int) ≤ digits * 10 ^ exponent)
    (small : (digits : ℚ) * 10 ^ exponent < 10 ^ (29 : Int)) :
    ∃ value, ofDecimal? negative digits exponent = some value ∧ value.negative = negative ∧
      value.IsNormal ∧ value.Covers (digits * 10 ^ exponent) := by
  obtain ⟨least, most⟩ := Text.length_ofNat_bounds positive
  have ten : (1 : ℚ) < 10 := by norm_num
  have step := ten_zpow_pos exponent
  have some : 0 < (Text.ofNat digits).length := List.length_pos_iff.mpr (Text.ofNat_ne_nil _)
  have notTiny : -28 < ((Text.ofNat digits).length : Int) + exponent := by
    refine (zpow_lt_zpow_iff_right₀ ten).mp (large.trans_lt ?_)
    rw [zpow_add₀ (by norm_num), ten_zpow_of_eq _ rfl]
    exact mul_lt_mul_of_pos_right (by exact_mod_cast most) step
  have notHuge : ((Text.ofNat digits).length : Int) - 1 + exponent < 29 := by
    refine (zpow_lt_zpow_iff_right₀ ten).mp (lt_of_le_of_lt ?_ small)
    rw [zpow_add₀ (by norm_num), ten_zpow_of_eq ((Text.ofNat digits).length - 1) (by omega)]
    exact mul_le_mul_of_nonneg_right (by exact_mod_cast least) step.le
  have quotient : ((digits * tenTo exponent.toNat : Nat) : ℚ) / tenTo (-exponent).toNat =
      digits * 10 ^ exponent := by
    rw [Nat.cast_mul, mul_div_assoc, tenTo_div]
  have read : ofDecimal? negative digits exponent =
      ofQuotient? negative (digits * tenTo exponent.toNat) (tenTo (-exponent).toNat) := by
    unfold ofDecimal?
    rw [← Text.ofNat, if_neg (by omega), if_neg (by omega)]
  rw [read, ← quotient]
  rw [← quotient] at large small
  refine ofQuotient?_covers negative (Nat.mul_pos positive (tenTo_pos _)) (tenTo_pos _) ?_ ?_
  · calc (2 : ℚ) ^ (-1022 : Int) ≤ 2 ^ (-128 : Int) :=
          zpow_le_zpow_right₀ (by norm_num) (by norm_num)
      _ ≤ 10 ^ (-28 : Int) := by norm_num
      _ ≤ _ := large
  · calc _ < (10 : ℚ) ^ (29 : Int) := small
      _ ≤ 2 ^ (128 : Int) := by norm_num
      _ ≤ 2 ^ (1000 : Int) := zpow_le_zpow_right₀ (by norm_num) (by norm_num)

section Numerals

variable {numeral : Text.Numeral} {value : Binary64}

/-- The name of a value that is not finite does not begin like a numeral. -/
theorem toLower_of_numeral {c : Char} (first : c.isDigit = true ∨ c = '.') :
    c.toLower ≠ 'i' ∧ c.toLower ≠ 'n' := by
  rcases first with digit | rfl
  · have each : ∀ code < 58, 48 ≤ code → (Char.ofNat code).toLower ≠ 'i' ∧
        (Char.ofNat code).toLower ≠ 'n' := by
      decide +kernel
    obtain ⟨least, most⟩ := Text.isDigit_bounds digit
    simpa using each c.toNat (Nat.lt_succ_of_le most) least
  · decide

/-- The digits of a numeral are read as the number that they are rounded to. -/
theorem unsigned?_numeral {negative : Bool}
    (rounded : ofDecimal? negative numeral.coefficient (-(numeral.scale : Int)) = some value) :
    unsigned? negative numeral.unsigned = some (.finite value) := by
  have digits := numeral.digits?_row
  have behind : Text.NoDigit (numeral.places.elim [] ('.' :: ·)) := by
    cases numeral.places with
    | none => exact Text.noDigit_nil
    | some places => exact Text.noDigit_cons.mpr rfl
  unfold unsigned?
  rw [Text.Numeral.unsigned, List.span_eq_takeWhile_dropWhile,
    Text.takeWhile_digits numeral.digits_whole behind,
    Text.dropWhile_digits numeral.digits_whole behind]
  rw [Text.Numeral.row] at digits
  rw [Text.Numeral.scale] at rounded
  cases point : numeral.places with
  | none =>
    rw [point] at digits rounded
    simp only [Option.elim, Option.getD_none] at digits rounded ⊢
    rw [digits]
    simp only [exponent?, Option.bind_some, Option.map_some, Int.zero_sub, rounded]
  | some places =>
    have all := numeral.digits_places
    rw [point] at digits rounded all
    simp only [Option.elim, Option.getD_some] at digits rounded all ⊢
    have alone := Text.takeWhile_digits all Text.noDigit_nil
    have nothing := Text.dropWhile_digits all Text.noDigit_nil
    rw [List.append_nil] at alone nothing
    rw [List.span_eq_takeWhile_dropWhile, alone, nothing]
    simp only [digits, exponent?, Option.bind_some, Option.map_some, Int.zero_sub, rounded]

/-- A numeral is no name, and is read as the number that it is rounded to. -/
theorem ofChars?_numeral
    (rounded : ofDecimal? numeral.sign.negative numeral.coefficient (-(numeral.scale : Int)) =
      some value) :
    ofChars? numeral.chars = some (.finite value) := by
  obtain ⟨c, rest, written, first⟩ := numeral.exists_unsigned
  have lower := toLower_of_numeral first
  have unnamed (name : String) {letter : Char} (others : List Char)
      (spelled : name = String.ofList (letter :: others)) (apart : c.toLower ≠ letter) :
      String.ofList (numeral.unsigned.map Char.toLower) ≠ name := by
    intro same
    rw [spelled, written, String.ofList_inj] at same
    exact apart (List.cons.inj same).1
  have inf := unnamed "inf" ['n', 'f'] rfl lower.1
  have infinity := unnamed "infinity" ['n', 'f', 'i', 'n', 'i', 't', 'y'] rfl lower.1
  have nan := unnamed "nan" ['a', 'n'] rfl lower.2
  have read : (if String.ofList (numeral.unsigned.map Char.toLower) = "inf" ∨
        String.ofList (numeral.unsigned.map Char.toLower) = "infinity" then some Reading.infinite
      else if String.ofList (numeral.unsigned.map Char.toLower) = "nan" then some Reading.notANumber
      else unsigned? numeral.sign.negative numeral.unsigned) = some (.finite value) := by
    rw [if_neg (not_or.mpr ⟨inf, infinity⟩), if_neg nan, unsigned?_numeral rounded]
  rw [Text.Numeral.chars]
  cases sign : numeral.sign with
  | plus =>
    rw [sign] at read
    exact read
  | minus =>
    rw [sign] at read
    exact read
  | absent =>
    rw [sign] at read
    rw [Text.Sign.chars, List.nil_append]
    unfold ofChars?
    split
    next negative unsigned parts =>
    split at parts
    · next minus =>
      rw [written] at minus
      cases minus
      rcases first with digit | point
      · cases digit
      · cases point
    · next plus =>
      rw [written] at plus
      cases plus
      rcases first with digit | point
      · cases digit
      · cases point
    · cases parts
      exact read

end Numerals

/-! ## The plain text -/

/-- Zeros written behind a number multiply it by ten each. -/
theorem positional?_zeros_behind (value count : Nat) :
    Text.positional? 10 Text.digit? value (List.replicate count '0') =
      some (value * tenTo count) := by
  induction count generalizing value with
  | zero => rw [List.replicate_zero, Text.positional?, tenTo_zero, Nat.mul_one]
  | succ count ih =>
    have zero : Text.digit? '0' = some 0 := by decide
    rw [List.replicate_succ, Text.positional?, zero]
    simp only [Nat.add_zero, ih, tenTo_succ]
    rw [Nat.mul_comm 10 value, Nat.mul_assoc]

/-- The digits of a decimal on both sides of the point, as many of them places as its exponent
says. -/
theorem Digits.exists_positional (decimal : Digits) :
    ∃ whole places, decimal.positional = (whole, places) ∧
    (∀ c ∈ whole ++ places, c.isDigit = true) ∧ whole ≠ [] ∧
    places.length = (-decimal.exponent).toNat ∧
    Text.positional? 10 Text.digit? 0 (whole ++ places) =
      some (decimal.digits * tenTo decimal.exponent.toNat) := by
  unfold positional
  by_cases integral : 0 ≤ decimal.exponent
  · simp only [if_pos integral]
    refine ⟨_, [], rfl, ?_, ?_, ?_, ?_⟩
    · intro c member
      rw [List.append_nil] at member
      rcases List.mem_append.mp member with digit | zero
      · exact Text.isDigit_ofNat c digit
      · rw [(List.mem_replicate.mp zero).2]
        rfl
    · exact List.append_ne_nil_of_left_ne_nil (Text.ofNat_ne_nil _) _
    · rw [List.length_nil]
      omega
    · have front : Text.positional? 10 Text.digit? 0 (Text.ofNat decimal.digits) =
          some decimal.digits :=
        Text.positional?_toDigits (fun _ small => Text.digit?_digitChar small) (by decide) _
      rw [List.append_nil, Text.positional?_append, front, Option.bind_some,
        positional?_zeros_behind]
      by_cases empty : decimal.digits = 0
      · simp [empty]
      · rw [if_neg empty]
  · simp only [if_neg integral]
    have enough := Text.le_length_ofNatPadded (decimal.exponent.natAbs + 1) decimal.digits
    have all := Text.positional?_ofNatPadded (decimal.exponent.natAbs + 1) decimal.digits
    change ∃ whole places,
      (Text.ofNatPadded (decimal.exponent.natAbs + 1) decimal.digits).splitAt
        ((Text.ofNatPadded (decimal.exponent.natAbs + 1) decimal.digits).length -
          decimal.exponent.natAbs) = (whole, places) ∧ _
    have digits :
        ∀ c ∈ Text.ofNatPadded (decimal.exponent.natAbs + 1) decimal.digits, c.isDigit = true :=
      Text.isDigit_ofNatPadded
    generalize Text.ofNatPadded (decimal.exponent.natAbs + 1) decimal.digits =
      padded at enough all digits ⊢
    refine ⟨_, _, List.splitAt_eq, ?_, ?_, ?_, ?_⟩
    · rwa [List.take_append_drop]
    · rw [ne_eq, List.take_eq_nil_iff]
      rintro (none | empty)
      · omega
      · rw [empty, List.length_nil] at enough
        omega
    · rw [List.length_drop]
      omega
    · have none : decimal.exponent.toNat = 0 := by omega
      rw [List.take_append_drop, all, none, tenTo_zero, Nat.mul_one]

/-- The plain text of a number is this numeral, with the digits of the shortest decimal. -/
structure Shows (value : Binary64) (numeral : Text.Numeral) : Prop where
  chars : value.plainChars = numeral.chars
  sign : numeral.sign.negative = value.negative
  whole : numeral.whole ≠ []
  scale : numeral.scale = (-(value.shortest .awayFromZero).exponent).toNat
  coefficient : numeral.coefficient =
    (value.shortest .awayFromZero).digits * tenTo (value.shortest .awayFromZero).exponent.toNat
  pointless : numeral.scale = 0 → numeral.places = none

/-- Every value is written as a numeral that shows its shortest digits. -/
theorem exists_shows (value : Binary64) : ∃ numeral, value.Shows numeral := by
  obtain ⟨whole, places, parts, digits, some, count, spelled⟩ :=
    (value.shortest .awayFromZero).exists_positional
  let point : Option (List Char) := if places.isEmpty then none else Option.some places
  have behind : point.getD [] = places := by
    cases places <;> rfl
  have tail : point.elim [] ('.' :: ·) = if places.isEmpty then [] else '.' :: places := by
    cases places <;> rfl
  let numeral : Text.Numeral :=
    { sign := if value.negative then .minus else .absent
      whole, places := point
      digits_whole := fun c member => digits c (List.mem_append_left _ member)
      digits_places := by
        rw [behind]
        exact fun c member => digits c (List.mem_append_right _ member)
      some_digit := List.append_ne_nil_of_left_ne_nil some _ }
  refine ⟨numeral, ?_, ?_, some, ?_, ?_, ?_⟩
  · have signChars : numeral.sign.chars = if value.negative then ['-'] else [] := by
      change (if value.negative then Text.Sign.minus else .absent).chars = _
      cases value.negative <;> rfl
    rw [plainChars, parts, Text.Numeral.chars, Text.Numeral.unsigned, tail, signChars,
      ← List.append_assoc]
  · change (if value.negative then Text.Sign.minus else .absent).negative = _
    cases value.negative <;> rfl
  · rw [Text.Numeral.scale, behind, count]
  · change (Text.positional? 10 Text.digit? 0 (whole ++ point.getD [])).getD 0 = _
    rw [behind, spelled]
    rfl
  · intro integral
    rw [Text.Numeral.scale, behind] at integral
    exact if_pos (List.isEmpty_iff.mpr (List.eq_nil_of_length_eq_zero integral))

end Prepaid.Binary64
