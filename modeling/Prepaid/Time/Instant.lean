import Prepaid.Time.Calendar

/-!
# Instants

An instant is a second counted from the beginning of 1970 in UTC, with a number
of nanoseconds. A leap second is kept as a second full of nanoseconds behind the
last second of its minute. Instants are ordered, and whole seconds can be taken
away from one as long as the calendar reaches that far.
-/

namespace Prepaid

/-- The first second of the calendar, at the beginning of the year -262143. -/
abbrev Instant.firstSecond : Int := -8334601228800

/-- The last second of the calendar, at the end of the year 262142. -/
abbrev Instant.lastSecond : Int := 8210266876799

/-- The number of nanoseconds in a second. -/
abbrev Instant.nanosPerSecond : Nat := 1000000000

/-- A point in time. Nanoseconds beyond one second stand for a leap second. -/
structure Instant where
  seconds : Int
  nanos : Nat
  first_le : Instant.firstSecond ≤ seconds := by decide
  le_last : seconds ≤ Instant.lastSecond := by decide
  nanos_lt : nanos < 2 * Instant.nanosPerSecond := by decide
  leap : Instant.nanosPerSecond ≤ nanos → seconds % 60 = 59 := by decide
  deriving DecidableEq

namespace Instant

/-- The beginning of 1970. -/
def epoch : Instant := { seconds := 0, nanos := 0 }

instance : Inhabited Instant := ⟨epoch⟩

/-- The instant of a second and nanoseconds, if there is one. -/
def ofSeconds? (seconds : Int) (nanos : Nat) : Option Instant :=
  if valid : firstSecond ≤ seconds ∧ seconds ≤ lastSecond ∧ nanos < 2 * nanosPerSecond ∧
      (nanosPerSecond ≤ nanos → seconds % 60 = 59) then
    some ⟨seconds, nanos, valid.1, valid.2.1, valid.2.2.1, valid.2.2.2⟩
  else
    none

/-- The instant so many nanoseconds after the beginning of 1970, if there is one. -/
def ofNanos? (nanos : Int) : Option Instant :=
  ofSeconds? (nanos / nanosPerSecond) (nanos % nanosPerSecond).toNat

/-- Instants are ordered by their seconds, then by their nanoseconds. -/
def compare (left right : Instant) : Ordering :=
  (Ord.compare left.seconds right.seconds).then (Ord.compare left.nanos right.nanos)

instance : LT Instant := ⟨fun left right =>
  left.seconds < right.seconds ∨ left.seconds = right.seconds ∧ left.nanos < right.nanos⟩

instance (left right : Instant) : Decidable (left < right) :=
  inferInstanceAs (Decidable (_ ∨ _))

/-- The instant so many whole seconds earlier, if the calendar reaches it. The end of a leap second
counts as the beginning of the next minute, and a step out of it forward starts from the second
in front of it. -/
def minusSeconds? (instant : Instant) (span : Int) : Option Instant :=
  if nanosPerSecond ≤ instant.nanos ∧ span ≠ 0 then
    ofSeconds? (instant.seconds + (if 0 < span then 1 else 0) - span)
      (instant.nanos - nanosPerSecond)
  else
    ofSeconds? (instant.seconds - span) instant.nanos

/-- The calendar date of an instant. -/
def date (instant : Instant) : Date :=
  Date.ofDays (instant.seconds / 86400)

/-- The seconds since midnight, without a leap second. -/
def secondOfDay (instant : Instant) : Nat :=
  (instant.seconds % 86400).toNat

end Instant

end Prepaid
