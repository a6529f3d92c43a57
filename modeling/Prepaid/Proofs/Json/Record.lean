import Prepaid.Proofs.Ident
import Prepaid.Proofs.Json.Objects
import Prepaid.Proofs.Money.Text
import Prepaid.Proofs.Time.Text

/-!
# Written fields

Each kind of field of a record is read back from what is written for it: identifiers,
numbers and instants as they are, money as it is read from its text.
-/

namespace Prepaid.Json

/-- Naturals are what records hold. -/
theorem recorded_ofNatural (value : UInt64) : (ofNatural value).Recorded :=
  ⟨value.toNat, rfl⟩

/-- What may be missing is recorded if each of its values is. -/
theorem recorded_ofOption {α : Type} {encode : α → Json} (each : ∀ value, (encode value).Recorded)
    (value : Option α) : (ofOption encode value).Recorded := by
  cases value with
  | none => trivial
  | some value => exact each value

namespace Tree

/-- An identifier is read back. -/
@[simp] theorem uuid?_ofUuid (id : Uuid) : (ofUuid id).respelled.uuid? = some id := by
  simp [ofUuid, respelled, uuid?, text?]

/-- An instant is read back. -/
@[simp] theorem instant?_ofInstant (instant : Instant) :
    (ofInstant instant).respelled.instant? = some instant := by
  simp [ofInstant, respelled, instant?, text?]

/-- A natural is read back. -/
@[simp] theorem natural?_ofNatural (value : UInt64) :
    (ofNatural value).respelled.natural? = some value := by
  have fits : value.toNat ≤ Text.maxNat64 := Nat.le_of_lt_succ value.toNat_lt
  simp [ofNatural, ofInt, respelled, spelling_natural, natural?, integer?, Numeral.value?,
    NumberText.value?_ofNatural fits]

/-- Money is read back from its text, quantized and without the sign of a zero. -/
@[simp] theorem money?_ofMoney (money : Money) :
    (ofMoney money).respelled.money? = some money.reread := by
  simp [ofMoney, respelled, money?, decimal?, Decimal.ofText?_toText, Money.reread]

/-- An amount is still above zero when it is read back. -/
@[simp] theorem amount?_ofMoney (amount : Amount) :
    (ofMoney amount.money).respelled.amount? = some amount.reread := by
  have positive : 0 < amount.money.reread.cents := amount.reread.positive
  simp only [ofMoney, respelled, amount?, decimal?, Option.bind_some, Decimal.ofText?_toText]
  exact dif_pos positive

/-- The texts of money tell whether it is a zero with a minus sign. -/
theorem respelled_ofMoney_reread_iff {money : Money} (quantized : money.Quantized) :
    (ofMoney money.reread).respelled = (ofMoney money).respelled ↔ money.isMinusZero = false := by
  simp only [ofMoney, respelled, Tree.string.injEq, Option.some.injEq]
  exact quantized.toText_reread_eq_iff

/-- Money that is read is quantized. -/
theorem quantized_of_money? {tree : Tree} {money : Money} (read : tree.money? = some money) :
    money.Quantized := by
  obtain ⟨value, _, rfl⟩ := Option.map_eq_some_iff.mp read
  exact Money.quantized_ofDecimal value

/-- An amount is quantized as it is read. -/
theorem quantized_of_amount? {tree : Tree} {amount : Amount} (read : tree.amount? = some amount) :
    amount.money.Quantized := by
  obtain ⟨value, _, made⟩ := Option.bind_eq_some_iff.mp read
  unfold Amount.ofDecimal? at made
  split at made
  · cases made
    exact Money.quantized_ofDecimal value
  · cases made

end Tree

end Prepaid.Json
