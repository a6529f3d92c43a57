import Prepaid.Proofs.Text.Digits
import Prepaid.Proofs.Time.Calendar
import Prepaid.Time.Text

/-!
# Written instants

Every instant of the calendar is read back from its stored form, with a year of any
length and sign, a fraction of a second of any number of digits, and a leap second.
-/

namespace Prepaid.Instant

open Prepaid.Text

/-! ## Numbers and marks -/

/-- Nothing is dropped in front of a number. -/
theorem dropBlanks_ofNatPadded (width value : Nat) (rest : List Char) :
    dropBlanks (ofNatPadded width value ++ rest) = ofNatPadded width value ++ rest := by
  obtain ⟨c, others, written, digit⟩ := exists_ofNatPadded width value
  rw [written, List.cons_append, dropBlanks_cons (isBlank_of_isDigit digit)]

section Numbers

variable {width least value : Nat} {rest : List Char}

/-- A padded number is read back where no digit follows. -/
theorem number?_ofNatPadded (room : (ofNatPadded least value).length ≤ width)
    (ends : NoDigit rest) :
    number? width (ofNatPadded least value ++ rest) = some (value, rest) := by
  have beyond : NoDigit (rest.take (width - (ofNatPadded least value).length)) := by
    cases rest with
    | nil => simp
    | cons c rest => cases width - (ofNatPadded least value).length <;> simp_all
  rw [number?, List.take_append, List.take_of_length_le room,
    takeWhile_digits isDigit_ofNatPadded beyond, digits?_ofNatPadded, List.drop_left]
  rfl

/-- A field is read back where no digit follows. -/
theorem field?_ofNatPadded (room : (ofNatPadded least value).length ≤ width) (ends : NoDigit rest) :
    field? width (ofNatPadded least value ++ rest) = some (value, rest) := by
  rw [field?, dropBlanks_ofNatPadded, number?_ofNatPadded room ends]

/-- Months, days, hours, minutes and seconds have two digits. -/
theorem field?_twoDigits (small : value < 100) (ends : NoDigit rest) :
    field? 2 (ofNatPadded 2 value ++ rest) = some (value, rest) :=
  field?_ofNatPadded (Nat.le_of_eq (length_ofNatPadded (by decide) small)) ends

end Numbers

/-- A mark that stands there is read. -/
@[simp] theorem mark?_cons {mark : Char} (visible : isBlank mark = false) (rest : List Char) :
    mark? mark (mark :: rest) = some rest := by
  simp [mark?, visible]

/-! ## Dates -/

/-- A year is read back, with its sign if it has one. -/
theorem year?_yearChars (year : Int) {rest : List Char} (ends : NoDigit rest) :
    year? (yearChars year ++ rest) = some (year, rest) := by
  by_cases short : 0 ≤ year ∧ year ≤ 9999
  · have fits : year.natAbs < 10000 := by omega
    have room : (ofNatPadded 4 year.natAbs).length ≤ 4 :=
      Nat.le_of_eq (length_ofNatPadded (by decide) fits)
    have back : (year.natAbs : Int) = year := by omega
    obtain ⟨c, others, written, digit⟩ := exists_ofNatPadded 4 year.natAbs
    have read := number?_ofNatPadded room ends
    rw [yearChars, if_pos short, year?, dropBlanks_ofNatPadded]
    rw [written] at read ⊢
    split
    · next minus =>
      cases minus
      cases digit
    · next plus =>
      cases plus
      cases digit
    · simp only [read, Option.map_some, back]
  · have room : (ofNatPadded 4 year.natAbs).length ≤
        (ofNatPadded 4 year.natAbs ++ rest).length := by
      simp
    have read := number?_ofNatPadded room ends
    -- Behind a sign a year may have any number of digits.
    rw [yearChars, if_neg short, List.cons_append, year?]
    by_cases negative : year < 0
    · have back : -(year.natAbs : Int) = year := by omega
      rw [if_pos negative, dropBlanks_cons (by decide)]
      simp only [read, Option.map_some, back]
    · have back : (year.natAbs : Int) = year := by omega
      rw [if_neg negative, dropBlanks_cons (by decide)]
      simp only [read, Option.map_some, back]

/-- A date is read back if its month and its day have two digits. -/
theorem date?_dateChars {date : Date} (month : date.month < 100) (day : date.day < 100)
    {rest : List Char} (ends : NoDigit rest) :
    date? (dateChars date ++ rest) = some (date, rest) := by
  have hyphen : isBlank '-' = false := by decide
  have stops (rest : List Char) : NoDigit ('-' :: rest) := noDigit_cons.mpr (by decide)
  rw [date?]
  simp only [dateChars, List.append_assoc, List.cons_append, year?_yearChars _ (stops _),
    mark?_cons hyphen, field?_twoDigits month (stops _), field?_twoDigits day ends,
    Option.bind_eq_bind, Option.bind_some]
  rfl

/-! ## Times of day -/

/-- A fraction of a second is read back from as few groups of digits as it is written in. -/
theorem fraction?_group {width value nanos : Nat} {rest : List Char} (few : width ≤ 9)
    (positive : 0 < width) (fits : value < tenTo width) (worth : value * tenTo (9 - width) = nanos)
    (ends : NoDigit rest) :
    fraction? ('.' :: ofNatPadded width value ++ rest) = some (nanos, rest) := by
  have length := length_ofNatPadded positive fits
  have taken : (ofNatPadded width value ++ rest).length - rest.length = width := by
    rw [List.length_append, length]
    omega
  have none : ∀ c ∈ [], Char.isDigit c = true := by simp
  have after : rest.dropWhile Char.isDigit = rest := dropWhile_digits none ends
  rw [List.cons_append, fraction?, number?_ofNatPadded (by omega) ends, Option.map_some]
  simp only [taken, worth, after]

/-- A fraction of a second is read back, also where none is written. -/
theorem fraction?_fractionChars {nanos : Nat} (small : nanos < nanosPerSecond) {c : Char}
    {rest : List Char} (ends : c.isDigit = false) (other : c ≠ '.') :
    fraction? (fractionChars nanos ++ c :: rest) = some (nanos, c :: rest) := by
  have bound : nanos < 1000000000 := small
  have stops : NoDigit (c :: rest) := noDigit_cons.mpr ends
  have thousand : tenTo 3 = 1000 := rfl
  have million : tenTo 6 = 1000000 := rfl
  have billion : tenTo 9 = 1000000000 := rfl
  unfold fractionChars
  split
  · next none =>
    rw [none, List.nil_append, fraction?]
    intro others point
    cases point
    exact other rfl
  · split
    · exact fraction?_group (by decide) (by decide) (by omega) (by simp only [million]; omega) stops
    · split
      · exact fraction?_group (by decide) (by decide) (by omega)
          (by simp only [thousand]; omega) stops
      · exact fraction?_group (by decide) (by decide) (by omega) (Nat.mul_one nanos) stops

/-- The time of day that is written for an instant. -/
def clock (instant : Instant) : Clock where
  hour := instant.secondOfDay / 3600
  minute := instant.secondOfDay / 60 % 60
  second := instant.secondOfDay % 60 + instant.nanos / nanosPerSecond
  nanos := instant.nanos % nanosPerSecond

/-- A day has 86400 seconds. -/
theorem secondOfDay_lt (instant : Instant) : instant.secondOfDay < 86400 := by
  unfold secondOfDay
  omega

/-- Only a leap second adds one to the seconds of its minute. -/
theorem carry_cases (instant : Instant) :
    (instant.nanos < nanosPerSecond ∧ instant.nanos / nanosPerSecond = 0) ∨
      (nanosPerSecond ≤ instant.nanos ∧ instant.nanos / nanosPerSecond = 1) := by
  have bound : instant.nanos < 2 * 1000000000 := instant.nanos_lt
  unfold nanosPerSecond
  omega

/-- The time of day that is written exists. -/
theorem exists?_clock (instant : Instant) : instant.clock.exists? = true := by
  have day := instant.secondOfDay_lt
  have carry := instant.carry_cases
  have hour : instant.clock.hour ≤ 23 := by
    simp only [clock]
    omega
  have minute : instant.clock.minute ≤ 59 := by
    simp only [clock]
    omega
  have second : instant.clock.second ≤ 60 := by
    simp only [clock]
    omega
  simp [Clock.exists?, hour, minute, second]

/-- The time of day is read back. -/
theorem clock?_timeChars (instant : Instant) {c : Char} {rest : List Char}
    (ends : c.isDigit = false) (other : c ≠ '.') :
    clock? (timeChars instant ++ c :: rest) = some (instant.clock, c :: rest) := by
  have colon : isBlank ':' = false := by decide
  have stops (rest : List Char) : NoDigit (':' :: rest) := noDigit_cons.mpr (by decide)
  have day := instant.secondOfDay_lt
  have carry := instant.carry_cases
  have hour : instant.secondOfDay / 3600 < 100 := by omega
  have minute : instant.secondOfDay / 60 % 60 < 100 := by omega
  have second : instant.secondOfDay % 60 + instant.nanos / nanosPerSecond < 100 := by omega
  have fraction : instant.nanos % nanosPerSecond < nanosPerSecond := Nat.mod_lt _ (by decide)
  have behind : NoDigit (fractionChars (instant.nanos % nanosPerSecond) ++ c :: rest) := by
    unfold fractionChars
    repeat' split
    all_goals simp [ends]
  rw [clock?]
  simp only [timeChars, List.append_assoc, List.cons_append, field?_twoDigits hour (stops _),
    field?_twoDigits minute (stops _), field?_twoDigits second behind, mark?_cons colon,
    fraction?_fractionChars fraction ends other, Option.bind_eq_bind, Option.bind_some]
  rfl

/-! ## Instants -/

/-- The second of the day is what is left of the seconds without the days. -/
theorem secondOfDay_eq (instant : Instant) :
    (instant.secondOfDay : Int) = instant.seconds % 86400 := by
  unfold secondOfDay
  omega

/-- A leap second is told from the last second of its minute by its number. -/
theorem clock_seconds (instant : Instant) :
    min instant.clock.second 59 = instant.secondOfDay % 60 ∧
      instant.clock.nanos + (if instant.clock.second = 60 then nanosPerSecond else 0) =
        instant.nanos := by
  have parts : instant.clock.nanos =
      instant.nanos - nanosPerSecond * (instant.nanos / nanosPerSecond) := by
    simp only [clock, Nat.mod_eq_sub]
  rcases instant.carry_cases with ⟨ordinary, carry⟩ | ⟨late, carry⟩ <;> rw [carry] at parts
  · have second : instant.clock.second = instant.secondOfDay % 60 := by
      simp only [clock, carry, Nat.add_zero]
    rw [if_neg (by omega)]
    omega
  · have last := instant.leap late
    have day := instant.secondOfDay_eq
    have second : instant.clock.second = instant.secondOfDay % 60 + 1 := by simp only [clock, carry]
    rw [if_pos (by omega)]
    omega

/-- The date and the time of day of an instant make it up. -/
theorem ofLocal?_date (instant : Instant) :
    ofLocal? instant.date instant.clock 0 = some instant := by
  have calendar : instant.date.exists? = true := Date.exists?_ofDays _
  have days : instant.date.toDays = instant.seconds / 86400 := Date.toDays_ofDays _
  obtain ⟨second, nanos⟩ := instant.clock_seconds
  have seconds :
      instant.seconds / 86400 * 86400 + ((instant.clock.hour * 3600 + instant.clock.minute * 60 +
      min instant.clock.second 59 : Nat) : Int) - 0 = instant.seconds := by
    have day := instant.secondOfDay_eq
    rw [second]
    simp only [clock]
    omega
  have midnight : firstSecond ≤ instant.seconds / 86400 * 86400 ∧ instant.seconds / 86400 * 86400 ≤
      lastSecond := by
    have first := instant.first_le
    have last := instant.le_last
    unfold firstSecond lastSecond at *
    omega
  rw [ofLocal?, calendar, exists?_clock, days, Bool.and_self, if_pos rfl, if_pos midnight, seconds,
    nanos]
  exact dif_pos ⟨instant.first_le, instant.le_last, instant.nanos_lt, instant.leap⟩

/-- An instant is read back from its written form, however the offset of UTC is spelled. -/
theorem ofChars?_rfc3339Chars (instant : Instant) {c : Char} {zone : List Char}
    (ends : c.isDigit = false) (other : c ≠ '.') (utc : offset? (c :: zone) = some (0, [])) :
    ofChars? (instant.rfc3339Chars (c :: zone)) = some instant := by
  have calendar : instant.date.exists? = true := Date.exists?_ofDays _
  simp only [Date.exists?, Bool.and_eq_true, decide_eq_true_eq] at calendar
  obtain ⟨⟨⟨_, month⟩, _⟩, day⟩ := calendar
  have length := Date.monthLength_le instant.date.year instant.date.month
  have monthFits : instant.date.month < 100 := by omega
  have dayFits : instant.date.day < 100 := by omega
  have stops (rest : List Char) : NoDigit ('T' :: rest) := noDigit_cons.mpr (by decide)
  rw [ofChars?]
  simp only [rfc3339Chars, List.append_assoc, List.cons_append,
    date?_dateChars monthFits dayFits (stops _), separator?,
    Option.bind_eq_bind, Option.bind_some]
  rw [if_pos (by decide), Option.bind_some, clock?_timeChars instant ends other, Option.bind_some,
    utc]
  exact ofLocal?_date instant

/-- An instant is read back from the form that stored rows use. -/
@[simp] theorem ofText?_toZuluText (instant : Instant) :
    ofText? instant.toZuluText = some instant := by
  rw [ofText?, toZuluText, String.toList_ofList]
  exact instant.ofChars?_rfc3339Chars (by decide) (by decide) (by decide)

/-- An instant is read back from the form that tables show. -/
@[simp] theorem ofText?_toText (instant : Instant) : ofText? instant.toText = some instant := by
  rw [ofText?, toText, String.toList_ofList]
  exact instant.ofChars?_rfc3339Chars (by decide) (by decide) (by decide)

/-! ## The characters of an instant -/

/-- The marks between the numbers of an instant. -/
def marks : List Char := ['-', '+', ':', '.', 'T']

/-- A year is written with digits and marks. -/
theorem mem_yearChars {year : Int} {c : Char} (member : c ∈ yearChars year) :
    c.isDigit = true ∨ c ∈ marks := by
  unfold yearChars at member
  split at member
  · exact .inl (isDigit_ofNatPadded c member)
  · rcases List.mem_cons.mp member with sign | behind
    · right
      split at sign <;> simp [sign, marks]
    · exact .inl (isDigit_ofNatPadded c behind)

/-- A fraction is written with digits and marks. -/
theorem mem_fractionChars {nanos : Nat} {c : Char} (member : c ∈ fractionChars nanos) :
    c.isDigit = true ∨ c ∈ marks := by
  have group {width value : Nat} (inside : c ∈ '.' :: ofNatPadded width value) :
      c.isDigit = true ∨ c ∈ marks := by
    rcases List.mem_cons.mp inside with point | behind
    · exact .inr (by simp [point, marks])
    · exact .inl (isDigit_ofNatPadded c behind)
  unfold fractionChars at member
  split at member
  · cases member
  · split at member
    · exact group member
    · split at member
      · exact group member
      · exact group member

/-- In a written instant there are digits, marks between them, and the spelling of the offset of
UTC. -/
theorem mem_rfc3339Chars {instant : Instant} {zone : List Char} {c : Char}
    (member : c ∈ instant.rfc3339Chars zone) : c.isDigit = true ∨ c ∈ marks ∨ c ∈ zone := by
  have digits {width value : Nat} (inside : c ∈ ofNatPadded width value) :
      c.isDigit = true ∨ c ∈ marks ∨ c ∈ zone := .inl (isDigit_ofNatPadded c inside)
  have mark {sign : Char} (known : sign ∈ marks) (same : c = sign) : c.isDigit = true ∨ c ∈ marks ∨
      c ∈ zone :=
    .inr (.inl (same ▸ known))
  simp only [rfc3339Chars, dateChars, timeChars, List.append_assoc, List.cons_append,
    List.mem_append, List.mem_cons] at member
  rcases member with year | hyphen | month | second | day | letter | hour | colon | minute | last |
    seconds | fraction | offset
  · exact (mem_yearChars year).imp_right .inl
  · exact mark (by decide) hyphen
  · exact digits month
  · exact mark (by decide) second
  · exact digits day
  · exact mark (by decide) letter
  · exact digits hour
  · exact mark (by decide) colon
  · exact digits minute
  · exact mark (by decide) last
  · exact digits seconds
  · exact (mem_fractionChars fraction).imp_right .inl
  · exact .inr (.inr offset)

end Prepaid.Instant
