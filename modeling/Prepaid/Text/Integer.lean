/-!
# Whole numbers in text

Reading decimal and hexadecimal digits with an optional sign and a limit.
Nothing but the sign and digits is accepted, and there is at least one digit.
-/

namespace Prepaid.Text

/-- The value of a decimal digit. -/
def digit? (c : Char) : Option Nat :=
  if c.isDigit then some (c.toNat - '0'.toNat) else none

/-- The value of a hexadecimal digit, in either letter case. -/
def hexDigit? (c : Char) : Option Nat :=
  if c.isDigit then some (c.toNat - '0'.toNat)
  else if 'a' ≤ c ∧ c ≤ 'f' then some (c.toNat - 'a'.toNat + 10)
  else if 'A' ≤ c ∧ c ≤ 'F' then some (c.toNat - 'A'.toNat + 10)
  else none

/-- The number that a row of digits spells in `base`, after the digits already read as `value`. -/
def positional? (base : Nat) (digitOf : Char → Option Nat) : Nat → List Char → Option Nat
  | value, [] => some value
  | value, c :: rest =>
    match digitOf c with
    | some digit => positional? base digitOf (base * value + digit) rest
    | none => none

/-- A nonempty row of digits and nothing else. -/
def digits? (base : Nat) (digitOf : Char → Option Nat) (text : List Char) : Option Nat :=
  if text.isEmpty then none else positional? base digitOf 0 text

/-- Keeps a number that is at most `limit`. -/
def atMost? (limit : Nat) (value : Option Nat) : Option Nat :=
  value.filter (· ≤ limit)

/-- A natural in decimal digits after an optional plus sign, at most `limit`. -/
def natural? (limit : Nat) : List Char → Option Nat
  | '+' :: rest => atMost? limit (digits? 10 digit? rest)
  | text => atMost? limit (digits? 10 digit? text)

/-- A natural in hexadecimal digits after an optional plus sign, at most `limit`. -/
def hexNatural? (limit : Nat) : List Char → Option Nat
  | '+' :: rest => atMost? limit (digits? 16 hexDigit? rest)
  | text => atMost? limit (digits? 16 hexDigit? text)

/-- An integer in decimal digits after an optional sign, from `-(limit + 1)` to `limit`. -/
def integer? (limit : Nat) : List Char → Option Int
  | '-' :: rest => (atMost? (limit + 1) (digits? 10 digit? rest)).map fun value => -(value : Int)
  | text => (natural? limit text).map Int.ofNat

/-- The largest natural of 64 bits. -/
abbrev maxNat64 : Nat := 18446744073709551615

/-- The largest integer of 64 bits. -/
abbrev maxInt64 : Nat := 9223372036854775807

/-- The decimal digits of a natural, without leading zeros. -/
def ofNat (value : Nat) : List Char :=
  Nat.toDigits 10 value

/-- The decimal digits of a natural, with zeros in front up to `width` characters. -/
def ofNatPadded (width value : Nat) : List Char :=
  (ofNat value).leftpad width '0'

/-- An integer with a minus sign where it is negative. -/
def ofInt (value : Int) : List Char :=
  if value < 0 then '-' :: ofNat value.natAbs else ofNat value.natAbs

end Prepaid.Text
