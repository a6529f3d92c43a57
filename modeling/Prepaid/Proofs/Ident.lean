import Prepaid.Ident
import Prepaid.Proofs.Text.Bytes
import Prepaid.Proofs.Text.Digits

/-!
# Written identifiers

Of the four spellings of an identifier the grouped one is written. It has four
characters more than the digits alone, so it is not mistaken for them.
-/

namespace Prepaid.Uuid

/-- An identifier has 32 digits. -/
theorem length_digits (id : Uuid) : id.digits.length = 32 := by
  have fits : id.bits.toNat < 16 ^ 32 := id.bits.isLt
  have short : (Nat.toDigits 16 id.bits.toNat).length ≤ 32 :=
    (Nat.length_toDigits_le_iff (by decide) (by decide)).mpr fits
  rw [digits, List.length_leftpad]
  exact Nat.max_eq_left short

/-- An identifier is read back from its digits. -/
theorem ofDigits?_digits (id : Uuid) : ofDigits? id.digits = some id := by
  rw [ofDigits?, if_pos id.length_digits, digits,
    Text.digits?_leftpad (fun _ small => Text.hexDigit?_digitChar small) (by decide)]
  simp

/-- Each group but the last ends in a hyphen. -/
theorem length_hyphenate (length : Nat) (lengths : List Nat) (text : List Char) :
    (hyphenate (length :: lengths) text).length = text.length + lengths.length := by
  induction lengths generalizing length text with
  | nil => rfl
  | cons next lengths ih =>
    rw [hyphenate, List.length_append, List.length_cons, ih, List.length_take, List.length_drop,
      List.length_cons]
    · omega
    · simp

/-- Hyphens are taken away where they have been put, if the text reaches the last group. -/
theorem unhyphenate?_hyphenate (length : Nat) (lengths : List Nat) (text : List Char)
    (enough : (length :: lengths).foldr (· + ·) 0 ≤ text.length) :
    unhyphenate? (length :: lengths) (hyphenate (length :: lengths) text) = some text := by
  induction lengths generalizing length text with
  | nil => rfl
  | cons next lengths ih =>
    rw [List.foldr_cons] at enough
    have group : (text.take length).length = length := List.length_take_of_le (by omega)
    have later := ih next (text.drop length) (by rw [List.length_drop]; omega)
    rw [hyphenate, unhyphenate?]
    · rw [List.drop_left' group, List.take_left' group]
      simp [later]
    · simp
    · simp

/-- Nothing but hyphens is put into a text. -/
theorem mem_hyphenate {lengths : List Nat} {text : List Char} {c : Char}
    (member : c ∈ hyphenate lengths text) :
    c = '-' ∨ c ∈ text := by
  induction lengths, text using hyphenate.induct with
  | case1 text => exact .inr member
  | case2 length text => exact .inr member
  | case3 text length lengths several ih =>
    rw [hyphenate.eq_3 _ _ _ several, List.mem_append, List.mem_cons] at member
    rcases member with front | hyphen | behind
    · exact .inr (List.mem_of_mem_take front)
    · exact .inl hyphen
    · exact (ih behind).imp_right List.mem_of_mem_drop

/-- The digits of an identifier are hexadecimal ones. -/
theorem isSome_of_mem_digits {id : Uuid} : ∀ c ∈ id.digits, (Text.hexDigit? c).isSome :=
  Text.isSome_of_positional?
    (Text.positional?_leftpad (fun _ small => Text.hexDigit?_digitChar small)
      (by decide) 32 id.bits.toNat)

/-- A written identifier has 32 digits and four hyphens. -/
theorem length_toList_toText (id : Uuid) : id.toText.toList.length = 36 := by
  rw [toText, String.toList_ofList, groupLengths, length_hyphenate, length_digits]
  rfl

/-- The characters of a written identifier. -/
theorem mem_toText {id : Uuid} {c : Char} (member : c ∈ id.toText.toList) :
    c = '-' ∨ (Text.hexDigit? c).isSome := by
  rw [toText, String.toList_ofList] at member
  exact (mem_hyphenate member).imp_right (isSome_of_mem_digits c)

/-- An identifier is read back from its groups. -/
@[simp] theorem ofText?_toText (id : Uuid) : ofText? id.toText = some id := by
  have long : (hyphenate groupLengths id.digits).length = 36 := by
    have written := id.length_toList_toText
    rwa [toText, String.toList_ofList] at written
  have whole : ofDigits? (hyphenate groupLengths id.digits) = none := if_neg (by rw [long]; decide)
  have grouped : ofGroups? (hyphenate groupLengths id.digits) = some id := by
    rw [ofGroups?, groupLengths, unhyphenate?_hyphenate _ _ _ (by rw [length_digits]; decide),
      Option.bind_some, ofDigits?_digits]
  rw [ofText?, toText, String.toList_ofList, whole, grouped]
  rfl

end Prepaid.Uuid
