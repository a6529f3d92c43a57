import Prepaid.Binary64.Shortest

/-!
# Numbers in JSON

A number in a text is kept as it is spelled until its value is asked for. Integers
of 64 bits are exact. Any other number is a binary64 number computed in three steps:
as many digits as fit into 64 bits are taken, the rest only counts as powers of
ten, and the power is multiplied or divided in. Each step rounds on its own, so
the result can differ from the nearest number in its last digit.
-/

namespace Prepaid.Json

/-- The exponent of a number: its sign and its digits. -/
structure Exponent where
  negative : Bool
  digits : List Char
  deriving DecidableEq, Repr

/-- The spelling of a number. A number without a point has no fraction. -/
structure NumberText where
  negative : Bool
  whole : List Char
  fraction : List Char
  exponent : Option Exponent
  deriving DecidableEq, Repr

/-- The value of a number: an integer of 64 bits, or a binary64 number. -/
inductive Number where
  | integer (value : Int)
  | binary (value : Binary64)
  deriving DecidableEq, Repr

/-- The value of a row of digits. -/
def digitsValue (digits : List Char) : Nat :=
  digits.foldl (fun value c => 10 * value + (c.toNat - '0'.toNat)) 0

/-- Appends digits to a natural for as long as it has 64 bits, and counts them. -/
def appendDigits (value count : Nat) : List Char → Nat × Nat
  | [] => (value, count)
  | c :: rest =>
    let next := value * 10 + (c.toNat - '0'.toNat)
    if next ≤ Text.maxNat64 then appendDigits next (count + 1) rest else (value, count)

/-- The largest power of ten that is near a binary64 number. -/
def largestPower : Nat := 308

/-- Divides by the largest power of ten so many times, for as long as anything is left. -/
def overLargestPower? : Nat → Binary64 → Option Binary64
  | 0, value => some value
  | times + 1, value =>
    if value.isZero then some value
    else (value.overPowerOfTen? largestPower).bind (overLargestPower? times)

/-- Divides by a power of ten in steps that are themselves binary64 numbers. -/
def overPower? (value : Binary64) (power : Nat) : Option Binary64 :=
  (overLargestPower? (power / largestPower) value).bind fun value =>
    value.overPowerOfTen? (power % largestPower)

/-- A natural times a power of ten, or nothing where the product is infinite. -/
def scale? (significand : Nat) (power : Int) : Option Binary64 :=
  (Binary64.ofNat? significand).bind fun value =>
    if power < 0 then overPower? value power.natAbs
    else if power ≤ largestPower then value.timesPowerOfTen? power.natAbs
    else if value.isZero then some value
    else none

namespace NumberText

/-- The value of a number with a point, an exponent or too many digits for 64 bits. -/
def binary? (text : NumberText) : Option Binary64 :=
  let (significand, taken) := appendDigits 0 0 text.whole
  let (significand, places) := appendDigits significand 0 text.fraction
  let power : Int := (text.whole.length - taken : Nat) - (places : Int)
  match text.exponent with
  | none => scale? significand power
  | some exponent =>
    let value := digitsValue exponent.digits
    if 2147483647 < value ∧ (significand = 0 ∨ exponent.negative) then some (Binary64.zero false)
    else if exponent.negative then scale? significand (power - value)
    else scale? significand (power + value)

/-- The value of a number, or nothing where it is infinite. -/
def value? (text : NumberText) : Option Number :=
  let magnitude := digitsValue text.whole
  let integral := text.fraction.isEmpty && text.exponent.isNone
  if integral && !text.negative && magnitude ≤ Text.maxNat64 then some (.integer magnitude)
  else if integral && text.negative && 0 < magnitude && magnitude ≤ Text.maxInt64 + 1 then
    some (.integer (-(magnitude : Int)))
  else
    text.binary?.map fun value => .binary (value.withSign text.negative)

/-- The characters of a spelling. -/
def chars (text : NumberText) : List Char :=
  (if text.negative then ['-'] else []) ++ text.whole ++
    (if text.fraction.isEmpty then [] else '.' :: text.fraction) ++
    match text.exponent with
    | none => []
    | some exponent => 'e' :: ((if exponent.negative then ['-'] else []) ++ exponent.digits)

end NumberText

namespace Number

/-- The spelling of a binary64 number: positional from `10 ^ -5` up to sixteen digits before the
point, always with a place, and with an exponent beyond. Of digits that are equally near it shows
the even ones. -/
def binarySpelling (value : Binary64) : NumberText :=
  let shortest := value.shortest .toEven
  let digits := Text.ofNat shortest.digits
  let pointAfter := digits.length + shortest.exponent
  if -5 < pointAfter ∧ pointAfter ≤ 16 then
    let (whole, places) := shortest.positional
    ⟨value.negative, whole, if places.isEmpty then ['0'] else places, none⟩
  else
    let power := pointAfter - 1
    ⟨value.negative, digits.take 1, digits.drop 1, some ⟨power < 0, Text.ofNat power.natAbs⟩⟩

/-- The spelling of a number. -/
def spelling : Number → NumberText
  | .integer value => ⟨value < 0, Text.ofNat value.natAbs, [], none⟩
  | .binary value => binarySpelling value

end Number

/-- A number within a tree: as a text spells it, or as a value that has no spelling yet. -/
inductive Numeral where
  | spelled (text : NumberText)
  | known (value : Number)
  deriving DecidableEq, Repr

namespace Numeral

/-- The value of a number, or nothing where it is infinite. A known value is not read again. -/
def value? : Numeral → Option Number
  | .spelled text => text.value?
  | .known value => some value

/-- The characters of a number. -/
def chars : Numeral → List Char
  | .spelled text => text.chars
  | .known value => value.spelling.chars

end Numeral

end Prepaid.Json
