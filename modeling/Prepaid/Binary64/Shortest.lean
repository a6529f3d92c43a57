import Prepaid.Binary64.Basic
import Prepaid.Text.Integer

/-!
# The shortest decimal of a binary64 number

A binary64 number is written with the fewest digits that read back to it, and of
those with the digits nearest to its value; a parameter decides between digits that
are equally near. The search tries one digit, then two and so on; on each decimal
grid only the two neighbours of the value can be the ones wanted.
-/

namespace Prepaid.Binary64

/-- The decimal `digits * 10 ^ exponent`. -/
structure Digits where
  digits : Nat
  exponent : Int
  deriving DecidableEq, Repr

/-- The numerator and denominator of a decimal. -/
def Digits.quotient (value : Digits) : Nat × Nat :=
  (value.digits * tenTo value.exponent.toNat, tenTo (-value.exponent).toNat)

/-- The ends of the interval of reals that round to the number, as numerators over four times the
denominator of its value. -/
def roundingEnds (value : Binary64) : Nat × Nat :=
  let unit := twoTo value.exponent.toNat
  let below := if value.significand = twoTo (precision - 1) ∧
    minExponent < value.exponent then 1 else 2
  ((4 * value.significand - below) * unit, (4 * value.significand + 2) * unit)

/-- Whether a decimal rounds to the number; the ends of the interval do if the significand is
even. -/
def readsAs (value : Binary64) (decimal : Digits) : Bool :=
  let (low, high) := value.roundingEnds
  let (num, den) := decimal.quotient
  let scaled := 4 * num * value.quotient.2
  if value.significand % 2 = 0 then low * den ≤ scaled && scaled ≤ high * den
  else low * den < scaled && scaled < high * den

/-- The number of decimal digits in front of the point, which is negative for a small number. -/
def magnitude (value : Binary64) : Int :=
  let (num, den) := value.quotient
  if den ≤ num then (Nat.toDigits 10 (num / den)).length
  else
    let width := (Nat.toDigits 10 (den / num)).length
    if num * tenTo (width - 1) = den then 2 - (width : Int) else 1 - (width : Int)

/-- The nearer of the two neighbours of the number on the grid `10 ^ exponent` that read back; a
half goes as `tie` says. -/
def onGrid? (tie : Tie) (value : Binary64) (exponent : Int) : Option Digits :=
  let (num, den) := value.quotient
  let num := num * tenTo (-exponent).toNat
  let den := den * tenTo exponent.toNat
  let below : Digits := ⟨num / den, exponent⟩
  let above : Digits := ⟨num / den + 1, exponent⟩
  match value.readsAs below, value.readsAs above with
  | true, true => some ⟨roundDiv tie num den, exponent⟩
  | true, false => some below
  | false, true => some above
  | false, false => none

/-- Ten units of a grid are one unit of the next coarser grid. -/
def Digits.carry (value : Digits) : Digits :=
  if value.digits = 10 then ⟨1, value.exponent + 1⟩ else value

/-- The fewest digits that read back; seventeen are always enough. -/
def shortest (tie : Tie) (value : Binary64) : Digits :=
  if value.isZero then ⟨0, 0⟩
  else
    (((List.range 17).findSome?
      fun count => value.onGrid? tie (value.magnitude - (count + 1 : Nat))).getD
      ⟨value.quotient.1, 0⟩).carry

/-- Splits digits with an exponent at the point: the whole part, and the places. -/
def Digits.positional (value : Digits) : List Char × List Char :=
  let digits := Text.ofNat value.digits
  if 0 ≤ value.exponent then
    (digits ++ List.replicate (if value.digits = 0 then 0 else value.exponent.toNat) '0', [])
  else
    let places := value.exponent.natAbs
    let padded := digits.leftpad (places + 1) '0'
    padded.splitAt (padded.length - places)

/-- The positional form, without an exponent and without a point where no places follow. Of digits
that are equally near it shows the larger. -/
def plainChars (value : Binary64) : List Char :=
  let (whole, places) := (value.shortest .awayFromZero).positional
  (if value.negative then ['-'] else []) ++ whole ++ (if places.isEmpty then [] else '.' :: places)

end Prepaid.Binary64
