import Prepaid.Time.Instant

/-!
# Earlier instants

On the line of nanoseconds the end of a leap second lies where the next minute begins.
There the instant a span earlier is found by subtraction.
-/

namespace Prepaid.Instant

/-- The nanoseconds from the beginning of 1970 to an instant. -/
def position (instant : Instant) : Int :=
  instant.seconds * nanosPerSecond + instant.nanos

/-- The first of these instants lies so many seconds before the second. Unless it is the same one,
it is not within a leap second. -/
structure LiesBefore (span : Int) (earlier later : Instant) : Prop where
  position : earlier.position = later.position - span * nanosPerSecond
  same : span = 0 → earlier = later
  plain : span ≠ 0 → earlier.nanos < nanosPerSecond

/-- Instants are the same in seconds and nanoseconds. -/
theorem ext_iff {left right : Instant} :
    left = right ↔ left.seconds = right.seconds ∧ left.nanos = right.nanos := by
  cases left
  cases right
  simp

/-- An instant that is made has its seconds and its nanoseconds. -/
theorem ofSeconds?_eq_some_iff {seconds : Int} {nanos : Nat} {instant : Instant} :
    ofSeconds? seconds nanos = some instant ↔ instant.seconds = seconds ∧
    instant.nanos = nanos := by
  unfold ofSeconds?
  split
  · next valid =>
    rw [Option.some_inj, eq_comm, ext_iff]
  · next invalid =>
    constructor
    · rintro ⟨⟩
    · rintro ⟨rfl, rfl⟩
      exact (invalid ⟨instant.first_le, instant.le_last, instant.nanos_lt, instant.leap⟩).elim

section Minus

variable {instant earlier : Instant} {span : Int}

/-- Taking a span away from an instant leads to the one that lies the span before it. -/
theorem minusSeconds?_eq_some_iff (forward : 0 ≤ span) :
    instant.minusSeconds? span = some earlier ↔ earlier.LiesBefore span instant := by
  have leap := instant.nanos_lt
  have line : earlier.position = instant.position - span * nanosPerSecond ↔
      earlier.seconds * 1000000000 + earlier.nanos =
        instant.seconds * 1000000000 + instant.nanos - span * 1000000000 := Iff.rfl
  have whole : earlier.LiesBefore span instant ↔
      earlier.position = instant.position - span * nanosPerSecond ∧ (span = 0 → earlier = instant) ∧
        (span ≠ 0 → earlier.nanos < nanosPerSecond) :=
    ⟨fun lies => ⟨lies.position, lies.same, lies.plain⟩,
      fun ⟨position, same, plain⟩ => ⟨position, same, plain⟩⟩
  rw [whole, line, ext_iff]
  unfold minusSeconds?
  simp only [nanosPerSecond] at leap ⊢
  split
  · next inside =>
    rw [ofSeconds?_eq_some_iff, if_pos (by omega)]
    omega
  · next outside =>
    rw [ofSeconds?_eq_some_iff]
    omega

end Minus

end Prepaid.Instant
