import Prepaid.Decimal.Basic
import Prepaid.Text.Integer

/-!
# Decimals in text

The written form of a decimal shows all its places. Reading accepts an optional
sign, digits with at most one point, and underscores after the first digit. Digits
beyond the precision are rounded half up on the first of them. Where this fails, an
exponent may follow. A zero is read without a sign; only a negative number that its
exponent rounds to nothing leaves a zero with a minus sign.
-/

namespace Prepaid.Decimal

/-- What has been read of the digits of a number. -/
structure Reading where
  coefficient : Nat := 0
  places : Nat := 0
  pointSeen : Bool := false
  digitSeen : Bool := false

namespace Reading

/-- The number read, with its sign. A zero is read without one. -/
def finish (negative : Bool) (reading : Reading) : Option Decimal :=
  ofMantissa? (if negative then -(reading.coefficient : Int) else reading.coefficient)
    reading.places

/-- The number read with its last digit raised by one. A coefficient that grows past its limit
loses one more place. -/
def finishAbove (negative : Bool) (reading : Reading) : Option Decimal :=
  if reading.coefficient + 1 ≤ maxCoefficient then
    ({ reading with coefficient := reading.coefficient + 1 } : Reading).finish negative
  else if reading.places = 0 then none
  else
    ({ reading with
        coefficient := (reading.coefficient + 5) / 10
        places := reading.places - 1 } : Reading).finish negative

/-- A coefficient below this has been read within 64 bits, with room for more. -/
abbrev shortLimit : Nat := 18446744073709549060

/-- Ends the reading where the precision ends. What is left has to be digits and underscores up to
the end of the text; its first digit decides the rounding, half up. Behind a short coefficient an
underscore stands for a zero there, and behind a longer one it is passed over. -/
def roundOff (negative : Bool) (reading : Reading) (rest : List Char) : Option Decimal :=
  match (rest.filter fun c => c ≠ '_').mapM Text.digit? with
  | none => none
  | some digits =>
    if reading.coefficient < shortLimit && rest.head? = some '_' then reading.finish negative
    else if digits.head?.any fun first => 5 ≤ first then reading.finishAbove negative
    else reading.finish negative

/-- Reads the rest of a number. -/
def run (negative : Bool) (reading : Reading) : List Char → Option Decimal
  | [] => if reading.digitSeen then reading.finish negative else none
  | c :: rest =>
    if reading.pointSeen && maxScale ≤ reading.places then reading.roundOff negative (c :: rest)
    else
      match Text.digit? c with
      | some digit =>
        if reading.coefficient * 10 + digit ≤ maxCoefficient then
          run negative
            { coefficient := reading.coefficient * 10 + digit
              places := if reading.pointSeen then reading.places + 1 else 0
              pointSeen := reading.pointSeen
              digitSeen := true } rest
        else if reading.pointSeen then reading.roundOff negative (c :: rest)
        else none
      | none =>
        if c = '.' && !reading.pointSeen then run negative { reading with pointSeen := true } rest
        else if c = '_' && reading.digitSeen then run negative reading rest
        else none

end Reading

/-- A number without an exponent. -/
def ofPlainText? : List Char → Option Decimal
  | '-' :: rest => ({} : Reading).run true rest
  | '+' :: rest => ({} : Reading).run false rest
  | text => ({} : Reading).run false text

/-- The number divided by a power of ten. Places beyond the limit are rounded away first; the sign
stays, so that a negative number can become a zero with a sign. -/
def shiftRight? (value : Decimal) (exponent : Nat) : Option Decimal :=
  if small : exponent ≤ maxScale then
    let kept := value.roundTo .awayFromZero (maxScale - exponent)
    some
      { kept with
        scale := kept.scale + exponent
        scale_le := by
          have room : kept.scale ≤ maxScale - exponent := scale_roundTo_le ..
          omega }
  else
    none

/-- The number multiplied by a power of ten. It uses up its places first. -/
def shiftLeft? (value : Decimal) (exponent : Nat) : Option Decimal :=
  if exponent ≤ value.scale then ofMantissa? value.mantissa (value.scale - exponent)
  else if exponent ≤ maxScale then ofMantissa? (value.mantissa * tenTo (exponent - value.scale)) 0
  else none

/-- A number with an exponent, which is a natural of 32 bits, behind a minus sign if it is
negative. -/
def ofExponentText? (text : List Char) : Option Decimal :=
  match text.span fun c => c ≠ 'e' ∧ c ≠ 'E' with
  | (_, []) => none
  | (base, _ :: exponent) =>
    (ofPlainText? base).bind fun value =>
      match exponent with
      | '-' :: digits => (Text.natural? 4294967295 digits).bind value.shiftRight?
      | digits => (Text.natural? 4294967295 digits).bind value.shiftLeft?

/-- The number that a text spells, if it spells one. -/
def ofText? (text : String) : Option Decimal :=
  (ofPlainText? text.toList).or (ofExponentText? text.toList)

/-- The digits of a decimal, split at the point. -/
def digitParts (value : Decimal) : List Char × List Char :=
  let digits := Text.ofNatPadded (value.scale + 1) value.coefficient
  digits.splitAt (digits.length - value.scale)

/-- The characters of a decimal: a minus sign if it has one, and all its places. -/
def toChars (value : Decimal) : List Char :=
  let (whole, places) := value.digitParts
  (if value.negative then ['-'] else []) ++ whole ++ (if value.scale = 0 then [] else '.' :: places)

/-- The written form of a decimal. -/
def toText (value : Decimal) : String :=
  String.ofList value.toChars

end Prepaid.Decimal
