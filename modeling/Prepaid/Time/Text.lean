import Prepaid.Decimal.Power
import Prepaid.Text.Blank
import Prepaid.Text.Integer
import Prepaid.Time.Instant

/-!
# Instants in text

Instants are written in the form of RFC 3339 with the fewest of 0, 3, 6 or 9
digits for a fraction that show it exactly. Years outside four digits carry a
sign. Reading is more lenient: numbers may be short, blanks may stand in front of
numbers and separators, and the offset has several spellings.
-/

namespace Prepaid.Instant

open Prepaid.Text

/-! ## Writing -/

/-- A year: four digits, or a sign and at least four digits. -/
def yearChars (year : Int) : List Char :=
  if 0 ≤ year ∧ year ≤ 9999 then ofNatPadded 4 year.natAbs
  else (if year < 0 then '-' else '+') :: ofNatPadded 4 year.natAbs

/-- Year, month and day with hyphens between them. -/
def dateChars (date : Date) : List Char :=
  yearChars date.year ++ '-' :: ofNatPadded 2 date.month ++ '-' :: ofNatPadded 2 date.day

/-- A fraction of a second in the fewest groups of three digits. -/
def fractionChars (nanos : Nat) : List Char :=
  if nanos = 0 then []
  else if nanos % 1000000 = 0 then '.' :: ofNatPadded 3 (nanos / 1000000)
  else if nanos % 1000 = 0 then '.' :: ofNatPadded 6 (nanos / 1000)
  else '.' :: ofNatPadded 9 nanos

/-- Hours, minutes and seconds with colons between them. A leap second is second 60. -/
def timeChars (instant : Instant) : List Char :=
  let second := instant.secondOfDay % 60 + instant.nanos / nanosPerSecond
  ofNatPadded 2 (instant.secondOfDay / 3600) ++ ':' ::
    ofNatPadded 2 (instant.secondOfDay / 60 % 60) ++ ':' :: ofNatPadded 2 second ++
      fractionChars (instant.nanos % nanosPerSecond)

/-- The RFC 3339 form, with the given spelling of the offset of UTC. -/
def rfc3339Chars (zone : List Char) (instant : Instant) : List Char :=
  dateChars instant.date ++ 'T' :: timeChars instant ++ zone

/-- The RFC 3339 form with the offset `+00:00`. -/
def toText (instant : Instant) : String :=
  String.ofList (instant.rfc3339Chars "+00:00".toList)

/-- The RFC 3339 form with the offset `Z`, which stored rows use. -/
def toZuluText (instant : Instant) : String :=
  String.ofList (instant.rfc3339Chars ['Z'])

/-- The form for messages, with blanks between date, time and zone. -/
def toMessage (instant : Instant) : String :=
  String.ofList (dateChars instant.date ++ ' ' :: timeChars instant ++ " UTC".toList)

/-! ## Reading -/

/-- A number of one digit up to `width` digits. -/
def number? (width : Nat) (text : List Char) : Option (Nat × List Char) :=
  let digits := (text.take width).takeWhile Char.isDigit
  (digits? 10 digit? digits).map fun value => (value, text.drop digits.length)

/-- A number behind blanks. -/
def field? (width : Nat) (text : List Char) : Option (Nat × List Char) :=
  number? width (dropBlanks text)

/-- A given character behind blanks. -/
def mark? (mark : Char) (text : List Char) : Option (List Char) :=
  match dropBlanks text with
  | c :: rest => if c = mark then some rest else none
  | [] => none

/-- A year: up to four digits, or any number of digits behind a sign. -/
def year? (text : List Char) : Option (Int × List Char) :=
  match dropBlanks text with
  | '-' :: rest => (number? rest.length rest).map fun (value, rest) => (-(value : Int), rest)
  | '+' :: rest => (number? rest.length rest).map fun (value, rest) => ((value : Int), rest)
  | rest => (number? 4 rest).map fun (value, rest) => ((value : Int), rest)

/-- Year, month and day. -/
def date? (text : List Char) : Option (Date × List Char) := do
  let (year, text) ← year? text
  let text ← mark? '-' text
  let (month, text) ← field? 2 text
  let text ← mark? '-' text
  let (day, text) ← field? 2 text
  pure (⟨year, month, day⟩, text)

/-- A fraction of a second, in nanoseconds. Digits beyond the ninth are dropped. -/
def fraction? : List Char → Option (Nat × List Char)
  | '.' :: rest =>
    (number? 9 rest).map fun (value, afterDigits) =>
      (value * tenTo (9 - (rest.length - afterDigits.length)), afterDigits.dropWhile Char.isDigit)
  | text => some (0, text)

/-- A time of day as it is read. -/
structure Clock where
  hour : Nat
  minute : Nat
  second : Nat
  nanos : Nat

/-- Whether there is such a time of day; second 60 is a leap second. -/
def Clock.exists? (clock : Clock) : Bool :=
  clock.hour ≤ 23 && clock.minute ≤ 59 && clock.second ≤ 60

/-- Hours, minutes, seconds and a fraction. -/
def clock? (text : List Char) : Option (Clock × List Char) := do
  let (hour, text) ← field? 2 text
  let text ← mark? ':' text
  let (minute, text) ← field? 2 text
  let text ← mark? ':' text
  let (second, text) ← field? 2 text
  let (nanos, text) ← fraction? text
  pure (⟨hour, minute, second, nanos⟩, text)

/-- Exactly two digits. -/
def twoDigits? : List Char → Option (Nat × List Char)
  | tens :: ones :: rest => do
    let tens ← digit? tens
    let ones ← digit? ones
    pure (10 * tens + ones, rest)
  | _ => none

/-- The hours and minutes of an offset, in seconds; it is less than a day. -/
def offsetSpan? (text : List Char) : Option (Int × List Char) := do
  let (hours, text) ← twoDigits? text
  let (minutes, text) ← twoDigits? (text.dropWhile fun c => c = ':' || isBlank c)
  if hours ≤ 23 ∧ minutes ≤ 59 then pure (((hours * 3600 + minutes * 60 : Nat) : Int), text)
    else none

/-- An offset from UTC, in seconds: `Z`, `UTC`, or a sign with hours and minutes. -/
def offset? (text : List Char) : Option (Int × List Char) :=
  match dropBlanks text with
  | 'Z' :: rest => some (0, rest)
  | 'z' :: rest => some (0, rest)
  | '+' :: rest => offsetSpan? rest
  | '-' :: rest => (offsetSpan? rest).map fun (span, rest) => (-span, rest)
  | '\u2212' :: rest => (offsetSpan? rest).map fun (span, rest) => (-span, rest)
  | u :: t :: c :: rest =>
    if [u, t, c].map Char.toLower = ['u', 't', 'c'] then some (0, rest) else none
  | _ => none

/-- Drops the character between date and time, which is a letter T or a blank. -/
def separator? : List Char → Option (List Char)
  | c :: rest => if c = 't' ∨ c = 'T' ∨ c = ' ' then some rest else none
  | [] => none

/-- The instant of a local date and time at an offset from UTC. The date itself has to lie in the
calendar, and so has the instant. -/
def ofLocal? (date : Date) (clock : Clock) (offset : Int) : Option Instant :=
  if date.exists? && clock.exists? then
    let midnight := date.toDays * 86400
    if firstSecond ≤ midnight ∧ midnight ≤ lastSecond then
      ofSeconds?
        (midnight + (clock.hour * 3600 + clock.minute * 60 + min clock.second 59 : Nat) - offset)
        (clock.nanos + if clock.second = 60 then nanosPerSecond else 0)
    else
      none
  else
    none

/-- The instant that the characters spell. -/
def ofChars? (text : List Char) : Option Instant := do
  let (date, text) ← date? text
  let text ← separator? text
  let (clock, text) ← clock? text
  let (offset, text) ← offset? text
  if (dropBlanks text).isEmpty then ofLocal? date clock offset else none

/-- The instant that a text spells, if it spells one. -/
def ofText? (text : String) : Option Instant :=
  ofChars? text.toList

end Prepaid.Instant
