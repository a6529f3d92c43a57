import Prepaid.Binary64.Shortest

/-!
# Reading binary64 numbers

A decimal with an optional sign, point and exponent, or a name for a value that
is not finite. The decimal is rounded once.
-/

namespace Prepaid.Binary64

/-- What a text stands for: a finite number, or one of the values that are not finite. -/
inductive Reading where
  | finite (value : Binary64)
  | infinite
  | notANumber
  deriving DecidableEq, Repr

/-- An exponent: a mark, an optional sign and digits; nothing at all is zero. -/
def exponent? : List Char → Option Int
  | [] => some 0
  | mark :: rest =>
    if mark = 'e' ∨ mark = 'E' then
      match rest with
      | '-' :: digits => (Text.digits? 10 Text.digit? digits).map fun value => -(value : Int)
      | '+' :: digits => (Text.digits? 10 Text.digit? digits).map Int.ofNat
      | digits => (Text.digits? 10 Text.digit? digits).map Int.ofNat
    else
      none

/-- Digits with an optional point, at least one of them, and an optional exponent. -/
def unsigned? (negative : Bool) (text : List Char) : Option Reading :=
  let (whole, rest) := text.span Char.isDigit
  let (places, rest) :=
    match rest with
    | '.' :: rest => rest.span Char.isDigit
    | rest => ([], rest)
  (Text.digits? 10 Text.digit? (whole ++ places)).bind fun digits =>
    (exponent? rest).map fun exponent =>
      match ofDecimal? negative digits (exponent - places.length) with
      | some value => .finite value
      | none => .infinite

/-- A number or a name behind an optional sign. Names may be written in either case. -/
def ofChars? (text : List Char) : Option Reading :=
  let (negative, unsigned) :=
    match text with
    | '-' :: rest => (true, rest)
    | '+' :: rest => (false, rest)
    | rest => (false, rest)
  let name := String.ofList (unsigned.map Char.toLower)
  if name = "inf" ∨ name = "infinity" then some .infinite
  else if name = "nan" then some .notANumber
  else unsigned? negative unsigned

end Prepaid.Binary64
