import Prepaid.Decimal.Text

/-!
# Money

An amount of money is a decimal with at most two places. It is worth a whole
number of cents, `Money.cents`, whatever scale it is stored with; sums too large
for two places are stored with one place or none. An `Amount` is money above
zero.
-/

namespace Prepaid

/-- Money has two places. -/
abbrev Money.places : Nat := 2

/-- Rounds to two places, a half away from zero, and shows two places if the coefficient allows.
What rounds to nothing is a zero without a sign; a zero keeps the sign it has. -/
def Decimal.quantize (value : Decimal) : Decimal :=
  let rounded := value.roundTo .awayFromZero Money.places
  if rounded.isZero && !value.isZero then Decimal.zero.widenTo Money.places
  else rounded.widenTo Money.places

/-- A quantized decimal has two places at most. -/
theorem Decimal.scale_quantize_le (value : Decimal) : value.quantize.scale ≤ Money.places := by
  simp only [Decimal.quantize]
  split
  · exact Decimal.scale_widenTo_le Money.places Decimal.zero (Nat.zero_le _)
  · exact Decimal.scale_widenTo_le Money.places _
      (Decimal.scale_roundTo_le .awayFromZero Money.places value)

/-- A sum of money that does not fit into a decimal. -/
inductive Overflow where
  | addition
  | subtraction
  deriving DecidableEq, Repr

/-- The words for an overflow. -/
def Overflow.message : Overflow → String
  | .addition => "Addition overflowed"
  | .subtraction => "Subtraction overflowed"

/-- An amount of money, of either sign. -/
structure Money where
  value : Decimal
  places_le : value.scale ≤ Money.places
  deriving DecidableEq, Repr

namespace Money

/-- Nothing, stored without places. -/
def zero : Money := ⟨Decimal.zero, by decide⟩

instance : Inhabited Money := ⟨zero⟩

/-- A decimal as money, rounded to cents. -/
def ofDecimal (value : Decimal) : Money :=
  ⟨value.quantize, value.scale_quantize_le⟩

/-- What the money is worth in cents. -/
def cents (money : Money) : Int :=
  money.value.mantissa * tenTo (places - money.value.scale)

instance : LT Money := ⟨fun left right => left.cents < right.cents⟩

instance : LE Money := ⟨fun left right => left.cents ≤ right.cents⟩

instance (left right : Money) : Decidable (left < right) :=
  inferInstanceAs (Decidable (left.cents < right.cents))

instance (left right : Money) : Decidable (left ≤ right) :=
  inferInstanceAs (Decidable (left.cents ≤ right.cents))

/-- How two sums compare, whatever scales they are stored with. -/
def compare (left right : Money) : Ordering :=
  Ord.compare left.cents right.cents

def isNegative (money : Money) : Bool :=
  money.cents < 0

/-- The sum, rounded if it is too large for two places. -/
def add (left right : Money) : Except Overflow Money :=
  match left.value.add? right.value with
  | some sum => .ok (ofDecimal sum)
  | none => .error .addition

/-- The difference, rounded if it is too large for two places. -/
def sub (left right : Money) : Except Overflow Money :=
  match left.value.sub? right.value with
  | some difference => .ok (ofDecimal difference)
  | none => .error .subtraction

/-- Puts what is computed from a sum in its place. Where this overflows, the sum stays. -/
def inPlace (compute : Money → Except Overflow Money) : EStateM Overflow Money Unit := do
  match compute (← get) with
  | .ok result => set result
  | .error overflow => throw overflow

/-- Adds to a sum in its place. -/
def increase (amount : Money) : EStateM Overflow Money Unit :=
  inPlace (·.add amount)

/-- Takes from a sum in its place. -/
def decrease (amount : Money) : EStateM Overflow Money Unit :=
  inPlace (·.sub amount)

/-- The written form, with two places where they fit. -/
def toText (money : Money) : String :=
  money.value.quantize.toText

instance : ToString Money := ⟨toText⟩

end Money

/-- An amount that one operation moves: money above zero. -/
structure Amount where
  money : Money
  positive : 0 < money.cents
  deriving DecidableEq, Repr

namespace Amount

/-- A decimal as an amount, if it is above zero when rounded to cents. -/
def ofDecimal? (value : Decimal) : Option Amount :=
  if positive : 0 < (Money.ofDecimal value).cents then some ⟨Money.ofDecimal value, positive⟩
    else none

def cents (amount : Amount) : Int :=
  amount.money.cents

instance : ToString Amount := ⟨fun amount => amount.money.toText⟩

end Amount

end Prepaid
