import Prepaid.Proofs.Text.Digits

/-!
# Numerals

A numeral is a number in plain digits: an optional sign, digits, and perhaps a point with
places behind it. It has neither an exponent nor anything between its digits. Integers are
read from the numerals without a point.
-/

namespace Prepaid.Text

/-- All rows of digits are read. -/
theorem positional?_isSome {digits : List Char} (all : ∀ c ∈ digits, c.isDigit = true)
    (value : Nat) :
    (positional? 10 digit? value digits).isSome := by
  induction digits generalizing value with
  | nil => rfl
  | cons c digits ih =>
    have digit : digit? c = some (c.toNat - '0'.toNat) := if_pos (all c List.mem_cons_self)
    rw [positional?, digit]
    exact ih (fun other member => all other (List.mem_cons_of_mem c member)) _

/-- Only digits are read. -/
theorem isDigit_of_positional? {value result : Nat} {digits : List Char}
    (read : positional? 10 digit? value digits = some result) : ∀ c ∈ digits, c.isDigit = true := by
  induction digits generalizing value with
  | nil => exact fun _ member => absurd member List.not_mem_nil
  | cons c digits ih =>
    rw [positional?, digit?] at read
    by_cases digit : c.isDigit
    · rw [if_pos digit] at read
      exact List.forall_mem_cons.mpr ⟨digit, ih read⟩
    · rw [if_neg digit] at read
      cases read

/-- What stands in front of the digits. -/
inductive Sign where
  | absent
  | plus
  | minus
  deriving DecidableEq

namespace Sign

def chars : Sign → List Char
  | absent => []
  | plus => ['+']
  | minus => ['-']

def negative : Sign → Bool
  | minus => true
  | _ => false

/-- A sign is a plus or a minus. -/
theorem mem_chars {sign : Sign} {c : Char} (member : c ∈ sign.chars) : c = '+' ∨ c = '-' := by
  cases sign with
  | absent => cases member
  | plus => exact .inl (List.mem_singleton.mp member)
  | minus => exact .inr (List.mem_singleton.mp member)

end Sign

/-- A number in plain digits. Without a point there are no places. -/
structure Numeral where
  sign : Sign
  whole : List Char
  places : Option (List Char)
  digits_whole : ∀ c ∈ whole, c.isDigit = true
  digits_places : ∀ c ∈ places.getD [], c.isDigit = true
  some_digit : whole ++ places.getD [] ≠ []

namespace Numeral

variable (numeral : Numeral)

/-- The digits on both sides of the point. -/
def row : List Char :=
  numeral.whole ++ numeral.places.getD []

/-- How many of them are places. -/
def scale : Nat :=
  (numeral.places.getD []).length

/-- The characters behind the sign. -/
def unsigned : List Char :=
  numeral.whole ++ numeral.places.elim [] ('.' :: ·)

def chars : List Char :=
  numeral.sign.chars ++ numeral.unsigned

/-- The natural that the digits spell, as if there were no point. -/
def coefficient : Nat :=
  (positional? 10 digit? 0 numeral.row).getD 0

/-- The coefficient with the sign. -/
def mantissa : Int :=
  if numeral.sign.negative then -(numeral.coefficient : Int) else numeral.coefficient

/-- A mantissa is a coefficient with a sign. -/
theorem natAbs_mantissa : numeral.mantissa.natAbs = numeral.coefficient := by
  unfold mantissa
  split <;> omega

/-- The row of a numeral has digits only. -/
theorem digits_row : ∀ c ∈ numeral.row, c.isDigit = true := by
  intro c member
  rcases List.mem_append.mp member with whole | places
  · exact numeral.digits_whole c whole
  · exact numeral.digits_places c places

/-- The row of a numeral is read as its coefficient. -/
theorem positional?_row : positional? 10 digit? 0 numeral.row = some numeral.coefficient := by
  obtain ⟨value, read⟩ := Option.isSome_iff_exists.mp (positional?_isSome numeral.digits_row 0)
  rw [coefficient, read]
  rfl

/-- There are digits in the row to be read. -/
theorem digits?_row : digits? 10 digit? numeral.row = some numeral.coefficient := by
  rw [digits?, if_neg (by simpa [row] using numeral.some_digit), positional?_row]

/-- Behind the sign there is a digit or a point. -/
theorem exists_unsigned : ∃ c rest, numeral.unsigned = c :: rest ∧
    (c.isDigit = true ∨ c = '.') := by
  cases whole : numeral.whole with
  | cons c rest =>
    have digit : c.isDigit = true :=
      numeral.digits_whole c (by rw [whole]; exact List.mem_cons_self)
    exact ⟨c, rest ++ numeral.places.elim [] ('.' :: ·), by rw [unsigned, whole]; rfl, .inl digit⟩
  | nil =>
    cases point : numeral.places with
    | none => exact (numeral.some_digit (by rw [whole, point]; rfl)).elim
    | some places => exact ⟨'.', places, by rw [unsigned, whole, point]; rfl, .inr rfl⟩

variable {numeral}

/-- Without a minus the mantissa is the coefficient. -/
theorem mantissa_of_ne_minus (positive : numeral.sign ≠ .minus) :
    numeral.mantissa = numeral.coefficient := by
  unfold mantissa
  cases sign : numeral.sign with
  | absent | plus => rfl
  | minus => exact (positive sign).elim

/-- Without a point the digits are all that stands behind the sign. -/
theorem unsigned_of_integer (integer : numeral.places = none) : numeral.unsigned = numeral.row := by
  rw [unsigned, row, integer]
  rfl

/-- Without a point there are no places. -/
theorem scale_of_integer (integer : numeral.places = none) : numeral.scale = 0 := by
  rw [scale, integer]
  rfl

/-! ## Integers -/

section Integers

variable (integer : numeral.places = none)

include integer

/-- Without a point the characters behind the sign are digits. -/
theorem exists_digit_of_integer : ∃ c rest, numeral.unsigned = c :: rest ∧ c.isDigit = true := by
  rw [unsigned_of_integer integer]
  exact exists_digit numeral.digits_row numeral.some_digit

/-- Without a point a numeral has digits and signs only. -/
theorem mem_chars_of_integer {c : Char} (member : c ∈ numeral.chars) : c.isDigit = true ∨ c = '+' ∨
    c = '-' := by
  rw [chars, unsigned_of_integer integer] at member
  rcases List.mem_append.mp member with sign | digit
  · exact .inr (Sign.mem_chars sign)
  · exact .inl (numeral.digits_row c digit)

/-- Without a point the unsigned part is read as the coefficient. -/
theorem digits?_unsigned : digits? 10 digit? numeral.unsigned = some numeral.coefficient := by
  rw [unsigned_of_integer integer]
  exact numeral.digits?_row

/-- Without a point the unsigned part is read as a natural within a limit. -/
theorem natural?_unsigned (limit : Nat) :
    natural? limit numeral.unsigned = atMost? limit (some numeral.coefficient) := by
  obtain ⟨c, rest, written, digit⟩ := exists_digit_of_integer integer
  rw [← digits?_unsigned integer, written]
  unfold natural?
  split
  · next plus =>
    cases plus
    cases digit
  · rfl

/-- A natural is read from a numeral without a point and a minus sign. -/
theorem natural?_chars (limit : Nat) : natural? limit numeral.chars =
    if numeral.sign = .minus then none else atMost? limit (some numeral.coefficient) := by
  rw [chars]
  cases sign : numeral.sign with
  | absent => exact natural?_unsigned integer limit
  | plus =>
    change atMost? limit (digits? 10 digit? numeral.unsigned) = _
    rw [digits?_unsigned integer]
    rfl
  | minus => rfl

/-- An integer is read from a numeral without a point. -/
theorem integer?_chars (limit : Nat) : integer? limit numeral.chars =
    if -(limit + 1 : Int) ≤ numeral.mantissa ∧
    numeral.mantissa ≤ limit then some numeral.mantissa else none := by
  have positive (sign : numeral.sign.negative = false) :
      (atMost? limit (some numeral.coefficient)).map Int.ofNat =
      if -(limit + 1 : Int) ≤ numeral.mantissa ∧
      numeral.mantissa ≤ limit then some numeral.mantissa else none := by
    have mantissa : numeral.mantissa = numeral.coefficient := by rw [mantissa, sign]; rfl
    rw [mantissa, atMost?, Option.filter_some]
    by_cases fits : numeral.coefficient ≤ limit
    · rw [if_pos (by simpa using fits), if_pos (by omega)]
      rfl
    · rw [if_neg (by simpa using fits), if_neg (by omega)]
      rfl
  cases sign : numeral.sign with
  | absent =>
    rw [← positive (by rw [sign]; rfl), ← natural?_unsigned integer, chars, sign]
    obtain ⟨c, rest, written, digit⟩ := exists_digit_of_integer integer
    rw [Sign.chars, List.nil_append, written]
    unfold integer?
    split
    · next minus =>
      cases minus
      cases digit
    · rfl
  | plus =>
    rw [← positive (by rw [sign]; rfl), ← digits?_unsigned integer, chars, sign]
    rfl
  | minus =>
    have mantissa : numeral.mantissa = -(numeral.coefficient : Int) := by rw [mantissa, sign]; rfl
    have read : integer? limit numeral.chars =
        (atMost? (limit + 1) (digits? 10 digit? numeral.unsigned)).map
          fun value => -(value : Int) := by
      rw [chars, sign]
      rfl
    rw [read, digits?_unsigned integer, mantissa, atMost?, Option.filter_some]
    by_cases fits : numeral.coefficient ≤ limit + 1
    · rw [if_pos (by simpa using fits), if_pos (by omega)]
      rfl
    · rw [if_neg (by simpa using fits), if_neg (by omega)]
      rfl

/-- A numeral that is read as a natural is its mantissa. -/
theorem natural?_chars_eq_some {limit value : Nat}
    (read : natural? limit numeral.chars = some value) : (value : Int) = numeral.mantissa := by
  rw [natural?_chars integer] at read
  split at read
  · cases read
  · next positive =>
    have same := (Option.filter_eq_some_iff.mp read).1
    cases same
    exact (mantissa_of_ne_minus positive).symm

/-- A numeral that is read as an integer is its mantissa. -/
theorem integer?_chars_eq_some {limit : Nat} {value : Int}
    (read : integer? limit numeral.chars = some value) :
    value = numeral.mantissa := by
  rw [integer?_chars integer] at read
  split at read <;> cases read
  rfl

/-- The numerals that are read with one limit for integers or another one for naturals. -/
theorem isSome_integer_or_natural_iff {signed unsigned : Nat} (wider : signed ≤ unsigned) :
    ((integer? signed numeral.chars).isSome ∨ (natural? unsigned numeral.chars).isSome) ↔
      -(signed + 1 : Int) ≤ numeral.mantissa ∧ numeral.mantissa ≤ unsigned := by
  rw [integer?_chars integer, natural?_chars integer]
  by_cases minus : numeral.sign = .minus
  · have mantissa : numeral.mantissa = -(numeral.coefficient : Int) := by rw [mantissa, minus]; rfl
    rw [if_pos minus, mantissa]
    simp only [Option.isSome_none, Bool.false_eq_true, or_false, Option.isSome_ite]
    omega
  · rw [if_neg minus, mantissa_of_ne_minus minus, atMost?, Option.filter_some]
    simp only [Option.isSome_ite, decide_eq_true_eq]
    omega

end Integers

/-- A row of digits behind a sign is a numeral without a point. -/
theorem exists_of_digits? {row : List Char} {value : Nat} (sign : Sign)
    (read : digits? 10 digit? row = some value) :
    ∃ numeral : Numeral, numeral.places = none ∧ numeral.sign = sign ∧
      numeral.chars = sign.chars ++ row ∧
      numeral.coefficient = value := by
  unfold digits? at read
  split at read
  · cases read
  · next nonempty =>
    refine ⟨⟨sign, row, none, isDigit_of_positional? read, by simp, by simpa using nonempty⟩, rfl,
      rfl, ?_, ?_⟩
    · rw [chars, unsigned, Option.elim, List.append_nil]
    · change (positional? 10 digit? 0 (row ++ [])).getD 0 = value
      rw [List.append_nil, read]
      rfl

/-- What is read as a natural is a numeral without a point. -/
theorem exists_of_natural? {limit value : Nat} {text : List Char}
    (read : natural? limit text = some value) :
    ∃ numeral : Numeral, numeral.places = none ∧ numeral.chars = text := by
  unfold natural? at read
  split at read
  · obtain ⟨numeral, integer, -, chars, -⟩ :=
      exists_of_digits? .plus (Option.filter_eq_some_iff.mp read).1
    exact ⟨numeral, integer, chars⟩
  · obtain ⟨numeral, integer, -, chars, -⟩ :=
      exists_of_digits? .absent (Option.filter_eq_some_iff.mp read).1
    exact ⟨numeral, integer, chars⟩

/-- What is read as an integer is a numeral without a point. -/
theorem exists_of_integer? {limit : Nat} {value : Int} {text : List Char}
    (read : integer? limit text = some value) :
    ∃ numeral : Numeral, numeral.places = none ∧ numeral.chars = text := by
  unfold integer? at read
  split at read
  · obtain ⟨_, made, -⟩ := Option.map_eq_some_iff.mp read
    obtain ⟨natural, naturalRead, -⟩ := Option.bind_eq_some_iff.mp made
    obtain ⟨numeral, integer, -, chars, -⟩ :=
      exists_of_digits? .minus (Option.filter_eq_some_iff.mp naturalRead).1
    exact ⟨numeral, integer, chars⟩
  · obtain ⟨natural, naturalRead, -⟩ := Option.map_eq_some_iff.mp read
    exact exists_of_natural? naturalRead

end Numeral

end Prepaid.Text
