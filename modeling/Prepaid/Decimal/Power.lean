/-!
# Powers of ten and of two

Decimals are scaled by powers of ten and binary numbers by powers of two. A scale
is a number of places, so each power is a natural, and at least one.
-/

namespace Prepaid

/-- A one with so many decimal zeros behind it. -/
def tenTo (places : Nat) : Nat :=
  Nat.pow 10 places

/-- A one with so many binary zeros behind it. -/
def twoTo (places : Nat) : Nat :=
  Nat.pow 2 places

@[simp] theorem tenTo_zero : tenTo 0 = 1 := rfl

/-- One place more multiplies by ten. -/
theorem tenTo_succ (places : Nat) : tenTo (places + 1) = 10 * tenTo places :=
  Nat.pow_succ'

/-- Places that are added multiply their powers. -/
theorem tenTo_add (left right : Nat) : tenTo (left + right) = tenTo left * tenTo right :=
  Nat.pow_add 10 left right

/-- A power of ten can be divided by. -/
theorem tenTo_pos (places : Nat) : 0 < tenTo places :=
  Nat.pow_pos (by decide)

/-- A power with at least one zero is at least ten. -/
theorem ten_le_tenTo {places : Nat} (positive : 0 < places) : 10 ≤ tenTo places := by
  obtain ⟨fewer, rfl⟩ : ∃ fewer, places = fewer + 1 := ⟨places - 1, by omega⟩
  have more := tenTo_pos fewer
  rw [tenTo_succ]
  omega

/-- A power of two can be divided by. -/
theorem twoTo_pos (places : Nat) : 0 < twoTo places :=
  Nat.pow_pos (by decide)

end Prepaid
