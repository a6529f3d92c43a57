import Prepaid.Decimal.Power
import Prepaid.Text.Blank
import Prepaid.Text.Integer

/-!
# Digits of naturals

The written digits of a natural spell that natural again, also behind zeros that fill
them up to a width, and in every base whose digits are read as they are written. A row
of digits may be read in two parts: the second goes on from the value of the first.
-/

namespace Prepaid.Text

/-! ## Rows of digits -/

section Positional

variable {base : Nat} {digitOf : Char → Option Nat}

/-- Digits are read from left to right, in two goes as in one. -/
theorem positional?_append (value : Nat) (front back : List Char) :
    positional? base digitOf value (front ++ back) =
      (positional? base digitOf value front).bind fun value =>
  positional? base digitOf value back := by
  induction front generalizing value with
  | nil => rfl
  | cons c front ih =>
    rw [List.cons_append, positional?, positional?]
    split
    · exact ih _
    · rfl

/-- Further digits never make a number smaller. -/
theorem le_of_positional? {value result : Nat} {digits : List Char} (positive : 0 < base)
    (read : positional? base digitOf value digits = some result) : value ≤ result := by
  induction digits generalizing value with
  | nil =>
    cases read
    exact Nat.le_refl _
  | cons c digits ih =>
    rw [positional?] at read
    split at read
    · have later := ih read
      have shifted : value ≤ base * value := Nat.le_mul_of_pos_left value positive
      omega
    · cases read

/-- A row that spells a number has nothing but digits in it. -/
theorem isSome_of_positional? {value result : Nat} {digits : List Char}
    (read : positional? base digitOf value digits = some result) :
    ∀ c ∈ digits, (digitOf c).isSome := by
  induction digits generalizing value with
  | nil => exact fun _ none => nomatch none
  | cons first digits ih =>
    rw [positional?] at read
    split at read
    · next digit known =>
      rw [List.forall_mem_cons, known]
      exact ⟨rfl, ih read⟩
    · cases read

variable (reads : ∀ digit < base, digitOf (Nat.digitChar digit) = some digit)

include reads

/-- A number is read back from its digits. -/
theorem positional?_toDigits (wide : 1 < base) (value : Nat) :
    positional? base digitOf 0 (Nat.toDigits base value) = some value := by
  induction value using Nat.strongRecOn with
  | ind value ih =>
    by_cases small : value < base
    · rw [Nat.toDigits_of_lt_base small, positional?, reads value small]
      simp [positional?]
    · have shorter : value / base < value := Nat.div_lt_self (by omega) wide
      rw [Nat.toDigits_of_base_le wide (by omega), positional?_append, ih _ shorter,
        Option.bind_some, positional?, reads _ (Nat.mod_lt value (by omega))]
      simp only [positional?, Nat.div_add_mod]

/-- Zeros in front of a number do not count. -/
theorem positional?_zeros (positive : 0 < base) (count : Nat) (digits : List Char) :
    positional? base digitOf 0 (List.replicate count '0' ++ digits) =
      positional? base digitOf 0 digits := by
  have zero : digitOf '0' = some 0 := reads 0 positive
  induction count with
  | zero => rfl
  | succ count ih =>
    rw [List.replicate_succ, List.cons_append, positional?, zero]
    exact ih

/-- Zeros in front of a number do not change it. -/
theorem positional?_leftpad (wide : 1 < base) (width value : Nat) :
    positional? base digitOf 0 ((Nat.toDigits base value).leftpad width '0') = some value := by
  rw [List.leftpad, positional?_zeros reads (by omega), positional?_toDigits reads wide]

/-- A natural is read back from its digits with zeros in front. -/
theorem digits?_leftpad (wide : 1 < base) (width value : Nat) :
    digits? base digitOf ((Nat.toDigits base value).leftpad width '0') = some value := by
  rw [digits?, if_neg (by simp [List.leftpad]), positional?_leftpad reads wide]

end Positional

/-! ## Decimal digits -/

/-- Digits have consecutive codes. -/
theorem isDigit_bounds {c : Char} (digit : c.isDigit = true) : 48 ≤ c.toNat ∧ c.toNat ≤ 57 := by
  simp only [Char.isDigit, Bool.and_eq_true, decide_eq_true_eq] at digit
  exact digit

/-- No digit is blank. -/
theorem isBlank_of_isDigit {c : Char} (digit : c.isDigit = true) : isBlank c = false := by
  have apart : ∀ code ∈ blankCodes, ¬ (48 ≤ code ∧ code ≤ 57) := by decide
  cases blank : isBlank c
  · rfl
  · exact absurd (isDigit_bounds digit) (apart c.toNat (by simpa [isBlank] using blank))

/-- What is visible is not dropped. -/
@[simp] theorem dropBlanks_cons {c : Char} (visible : isBlank c = false) (rest : List Char) :
    dropBlanks (c :: rest) = c :: rest := by
  simp [dropBlanks, visible]

/-- A decimal digit is read back. -/
theorem digit?_digitChar {digit : Nat} (small : digit < 10) :
    digit? (Nat.digitChar digit) = some digit := by
  have each : ∀ digit < 10, digit? (Nat.digitChar digit) = some digit := by decide
  exact each digit small

/-- A padded number is read back. -/
theorem positional?_ofNatPadded (width value : Nat) :
    positional? 10 digit? 0 (ofNatPadded width value) = some value :=
  positional?_leftpad (fun _ small => digit?_digitChar small) (by decide) width value

/-- A padded number has digits to be read. -/
theorem digits?_ofNatPadded (width value : Nat) :
    digits? 10 digit? (ofNatPadded width value) = some value :=
  digits?_leftpad (fun _ small => digit?_digitChar small) (by decide) width value

/-- A number is written with digits. -/
theorem isDigit_ofNat {value : Nat} : ∀ c ∈ ofNat value, c.isDigit = true :=
  fun _ member => Nat.isDigit_of_mem_toDigits (by decide) (by decide) member

/-- A padded number is written with digits. -/
theorem isDigit_ofNatPadded {width value : Nat} :
    ∀ c ∈ ofNatPadded width value, c.isDigit = true := by
  intro c member
  rcases List.mem_append.mp member with zero | digit
  · rw [(List.mem_replicate.mp zero).2]
    rfl
  · exact isDigit_ofNat c digit

/-- A number has at least one digit. -/
theorem ofNat_ne_nil (value : Nat) : ofNat value ≠ [] :=
  Nat.toDigits_ne_nil

/-- A padded number has at least one digit. -/
theorem ofNatPadded_ne_nil (width value : Nat) : ofNatPadded width value ≠ [] := by
  simp [ofNatPadded, List.leftpad, ofNat_ne_nil]

/-- A row of digits that is not empty starts with one. -/
theorem exists_digit {digits : List Char} (all : ∀ c ∈ digits, c.isDigit = true)
    (some : digits ≠ []) :
    ∃ c rest, digits = c :: rest ∧ c.isDigit = true := by
  obtain ⟨c, rest, written⟩ := List.exists_cons_of_ne_nil some
  refine ⟨c, rest, written, all c ?_⟩
  rw [written]
  exact List.mem_cons_self

/-- A number starts with a digit. -/
theorem exists_ofNat (value : Nat) : ∃ c rest, ofNat value = c :: rest ∧ c.isDigit = true :=
  exists_digit isDigit_ofNat (ofNat_ne_nil value)

/-- A padded number starts with a digit. -/
theorem exists_ofNatPadded (width value : Nat) :
    ∃ c rest, ofNatPadded width value = c :: rest ∧ c.isDigit = true :=
  exists_digit isDigit_ofNatPadded (ofNatPadded_ne_nil width value)

/-- A padded number is as long as it is asked to be. -/
theorem le_length_ofNatPadded (width value : Nat) : width ≤ (ofNatPadded width value).length := by
  rw [ofNatPadded, List.length_leftpad]
  exact Nat.le_max_left ..

/-- A number that fits is padded to the width and no further. -/
theorem length_ofNatPadded {width value : Nat} (positive : 0 < width) (fits : value < tenTo width) :
    (ofNatPadded width value).length = width := by
  have short : (ofNat value).length ≤ width :=
    (Nat.length_toDigits_le_iff (by decide) positive).mpr fits
  rw [ofNatPadded, List.length_leftpad]
  exact Nat.max_eq_left short

/-- The number of digits says between which powers of ten a natural lies. -/
theorem length_ofNat_bounds {value : Nat} (positive : 0 < value) :
    tenTo ((ofNat value).length - 1) ≤ value ∧ value < tenTo (ofNat value).length := by
  have some : 0 < (ofNat value).length := List.length_pos_iff.mpr (ofNat_ne_nil value)
  refine ⟨?_, (Nat.length_toDigits_le_iff (by decide) some).mp (Nat.le_refl _)⟩
  by_cases single : (ofNat value).length = 1
  · rw [single]
    exact positive
  · refine Nat.not_lt.mp fun less => ?_
    have short := (Nat.length_toDigits_le_iff (b := 10) (n := value) (by decide) (by omega)).mpr
      less
    change (ofNat value).length ≤ _ at short
    omega

/-- What stands behind a row of digits is no digit. -/
def NoDigit (rest : List Char) : Prop :=
  ∀ c ∈ rest.head?, c.isDigit = false

/-- No digit stands behind the end. -/
@[simp] theorem noDigit_nil : NoDigit [] := by simp [NoDigit]

/-- No digit stands behind if the next character is none. -/
@[simp] theorem noDigit_cons {c : Char} {rest : List Char} :
    NoDigit (c :: rest) ↔ c.isDigit = false := by
  simp [NoDigit]

section Rows

variable {digits rest : List Char} (all : ∀ c ∈ digits, c.isDigit = true) (ends : NoDigit rest)

include all ends

/-- A row of digits ends where no digit follows. -/
theorem takeWhile_digits : (digits ++ rest).takeWhile Char.isDigit = digits := by
  rw [List.takeWhile_append_of_pos all]
  cases rest with
  | nil => simp
  | cons c rest => simp [noDigit_cons.mp ends]

/-- What is left behind a row of digits is what follows. -/
theorem dropWhile_digits : (digits ++ rest).dropWhile Char.isDigit = rest := by
  rw [List.dropWhile_append_of_pos all]
  cases rest with
  | nil => rfl
  | cons c rest => simp [noDigit_cons.mp ends]

end Rows

/-- Only zero is written with a zero in front. -/
theorem head?_ofNat {value : Nat} (positive : 0 < value) : (ofNat value).head? ≠ some '0' := by
  induction value using Nat.strongRecOn with
  | ind value ih =>
    by_cases small : value < 10
    · have each : ∀ digit < 10, 0 < digit → (ofNat digit).head? ≠ some '0' := by decide
      exact each value small positive
    · have front := ih (value / 10) (Nat.div_lt_self positive (by decide)) (by omega)
      obtain ⟨c, rest, written⟩ := List.exists_cons_of_ne_nil (ofNat_ne_nil (value / 10))
      rw [written] at front
      rw [ofNat, Nat.toDigits_of_base_le (by decide) (by omega), ← ofNat, written]
      exact front

end Prepaid.Text
