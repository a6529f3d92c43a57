import Mathlib.Data.List.TakeDrop
import Mathlib.Data.List.TakeWhile
import Prepaid.Proofs.Decimal.Text
import Prepaid.Proofs.Money.Exact
import Prepaid.Proofs.Text.Numeral
import Prepaid.Text.Blank

/-!
# Decimals from numerals

A numeral that is within the precision is read exactly. Whatever is read as a decimal has
digits, signs, points, underscores and marks of exponents in it, and no blanks.
-/

namespace Prepaid.Decimal

/-! ## Numerals -/

section Numerals

variable {numeral : Text.Numeral}

/-- The digits of a numeral within the precision are all read. -/
theorem run_unsigned (negative : Bool) (whole : numeral.whole ≠ [])
    (fits : numeral.coefficient ≤ maxCoefficient) (few : numeral.scale ≤ maxScale) :
    ({} : Reading).run negative numeral.unsigned =
      ofMantissa? (if negative then -(numeral.coefficient : Int) else numeral.coefficient)
        numeral.scale := by
  have all := numeral.positional?_row
  rw [Text.Numeral.row, Text.positional?_append, Option.bind_eq_some_iff] at all
  obtain ⟨front, wholeRead, placesRead⟩ := all
  have frontFits : front ≤ maxCoefficient :=
    Nat.le_trans (Text.le_of_positional? (by decide) placesRead) fits
  have seen : (false || !numeral.whole.isEmpty) = true := by simpa using whole
  rw [Text.Numeral.unsigned, Reading.run_whole wholeRead frontFits, seen]
  cases point : numeral.places with
  | none =>
    rw [point] at placesRead
    cases placesRead
    rw [Text.Numeral.scale_of_integer point]
    rfl
  | some places =>
    rw [point, Option.getD_some] at placesRead
    have scale : numeral.scale = 0 + places.length := by
      rw [Text.Numeral.scale, point, Option.getD_some, Nat.zero_add]
    rw [scale] at few ⊢
    exact Reading.run_places placesRead fits few

/-- The sign of a numeral is set apart from its digits. -/
theorem ofPlainText?_chars :
    ofPlainText? numeral.chars = ({} : Reading).run numeral.sign.negative numeral.unsigned := by
  rw [Text.Numeral.chars]
  cases sign : numeral.sign with
  | plus => rfl
  | minus => rfl
  | absent =>
    obtain ⟨c, rest, written, digit⟩ := numeral.exists_unsigned
    rw [Text.Sign.chars, List.nil_append, written]
    unfold ofPlainText?
    split
    · next minus =>
      cases minus
      rcases digit with digit | digit <;> cases digit
    · next plus =>
      cases plus
      rcases digit with digit | digit <;> cases digit
    · rfl

/-- A numeral within the precision is read exactly. -/
theorem ofText?_numeral (whole : numeral.whole ≠ []) (fits : numeral.coefficient ≤ maxCoefficient)
    (few : numeral.scale ≤ maxScale) : ∃ value, ofText? (String.ofList numeral.chars) = some value ∧
      value.mantissa = numeral.mantissa ∧ value.scale = numeral.scale := by
  have made : ofMantissa? numeral.mantissa numeral.scale = some _ :=
    dif_pos ⟨by rwa [numeral.natAbs_mantissa], few⟩
  have plain := ofPlainText?_chars.trans (run_unsigned numeral.sign.negative whole fits few)
  refine ⟨_, ?_, mantissa_ofMantissa? made⟩
  rw [ofText?, String.toList_ofList, plain, ← Text.Numeral.mantissa, made]
  rfl

/-- Without a point no digit is rounded away, so that the number has to fit. -/
theorem fits_of_run_whole {negative seen : Bool} {coefficient spelled : Nat} {digits : List Char}
    {value : Decimal} (spells : Text.positional? 10 Text.digit? coefficient digits = some spelled)
    (read : Reading.run negative ⟨coefficient, 0, false, seen⟩ digits = some value) :
    spelled ≤ maxCoefficient := by
  induction digits generalizing coefficient seen with
  | nil =>
    cases spells
    rw [Reading.run] at read
    split at read
    · have same := congrArg Int.natAbs (mantissa_ofMantissa? read).1
      have bound := value.coefficient_le
      rw [natAbs_mantissa] at same
      split at same <;> simp only at same <;> omega
    · cases read
  | cons c digits ih =>
    rw [Text.positional?] at spells
    rw [Reading.run] at read
    split at spells
    · next digit digitEq =>
      simp only [Bool.false_and, Bool.false_eq_true, if_false, digitEq] at read
      split at read
      · rw [Nat.mul_comm] at spells
        exact ih spells read
      · cases read
    · cases spells

/-- An integer is read exactly if it is read at all. -/
theorem ofText?_integer (integer : numeral.places = none) {value : Decimal}
    (read : ofText? (String.ofList numeral.chars) = some value) :
    numeral.coefficient ≤ maxCoefficient ∧ value.mantissa = numeral.mantissa ∧ value.scale = 0 := by
  have row := Text.Numeral.unsigned_of_integer integer
  have whole : numeral.whole ≠ [] := by
    have nonempty := numeral.some_digit
    rwa [integer, Option.getD_none, List.append_nil] at nonempty
  have unmarked : ofExponentText? numeral.chars = none := by
    have unmarkedChars : ∀ c ∈ numeral.chars, decide (c ≠ 'e' ∧ c ≠ 'E') = true := by
      intro c member
      rcases Text.Numeral.mem_chars_of_integer integer member with digit | rfl | rfl
      · refine decide_eq_true ⟨?_, ?_⟩ <;> rintro rfl <;> cases digit
      · decide
      · decide
    rw [ofExponentText?, List.span_eq_takeWhile_dropWhile,
      List.dropWhile_eq_nil_iff.mpr unmarkedChars]
  have plain : ({} : Reading).run numeral.sign.negative numeral.row = some value := by
    rw [ofText?, String.toList_ofList, unmarked, Option.or_none, ofPlainText?_chars, row] at read
    exact read
  have fits := fits_of_run_whole numeral.positional?_row plain
  have few := Text.Numeral.scale_of_integer integer
  obtain ⟨same, sameRead, mantissaEq, scaleEq⟩ := ofText?_numeral whole fits (by omega)
  cases read.symm.trans sameRead
  exact ⟨fits, mantissaEq, scaleEq.trans few⟩

end Numerals

/-! ## Accepted characters -/

/-- The characters that a decimal may be written with. -/
def Accepted (c : Char) : Prop :=
  c.isDigit = true ∨ c ∈ ['+', '-', '.', '_', 'e', 'E']

/-- No blank is among the accepted characters. -/
theorem Accepted.not_blank {c : Char} (accepted : Accepted c) : Text.isBlank c = false := by
  rcases accepted with digit | listed
  · exact Text.isBlank_of_isDigit digit
  · simp only [List.mem_cons, List.not_mem_nil, or_false] at listed
    rcases listed with rfl | rfl | rfl | rfl | rfl | rfl <;> rfl

/-- Digits are accepted. -/
theorem accepted_of_digit? {c : Char} (digit : (Text.digit? c).isSome) : Accepted c := by
  unfold Text.digit? at digit
  split at digit
  · next isDigit => exact .inl isDigit
  · cases digit

/-- If all items are read together, each of them is read. -/
theorem isSome_of_mapM {α β : Type} {read? : α → Option β} {items : List α} {results : List β}
    (read : items.mapM read? = some results) : ∀ item ∈ items, (read? item).isSome := by
  induction items generalizing results with
  | nil => exact fun _ member => absurd member List.not_mem_nil
  | cons item items ih =>
    rw [List.mapM_cons] at read
    simp only [Option.bind_eq_bind, Option.bind_eq_some_iff] at read
    obtain ⟨first, firstRead, others, othersRead, -⟩ := read
    intro other member
    rcases List.mem_cons.mp member with rfl | member
    · rw [firstRead]
      rfl
    · exact ih othersRead other member

namespace Reading

variable {negative : Bool} {reading : Reading} {text : List Char} {value : Decimal}

/-- The digits that are dropped beyond the precision are accepted too. -/
theorem accepted_of_roundOff (read : reading.roundOff negative text = some value) :
    ∀ c ∈ text, Accepted c := by
  intro c member
  by_cases underscore : c = '_'
  · exact .inr (by simp [underscore])
  · unfold roundOff at read
    split at read
    · cases read
    · next digits digitsRead =>
      exact accepted_of_digit?
        (isSome_of_mapM digitsRead c (List.mem_filter.mpr ⟨member, by simpa using underscore⟩))

/-- A reading that succeeds has met accepted characters only. -/
theorem accepted_of_run (read : reading.run negative text = some value) :
    ∀ c ∈ text, Accepted c := by
  induction text generalizing reading with
  | nil => exact fun _ member => absurd member List.not_mem_nil
  | cons c rest ih =>
    have both (first : Accepted c) (others : ∀ other ∈ rest, Accepted other) :
        ∀ other ∈ c :: rest, Accepted other :=
      List.forall_mem_cons.mpr ⟨first, others⟩
    rw [run] at read
    split at read
    · exact accepted_of_roundOff read
    · split at read
      · next digit digitRead =>
        split at read
        · exact both (accepted_of_digit? (by rw [digitRead]; rfl)) (ih read)
        · split at read
          · exact accepted_of_roundOff read
          · cases read
      · split at read
        · next point => exact both (.inr (by simp_all)) (ih read)
        · split at read
          · next underscore => exact both (.inr (by simp_all)) (ih read)
          · cases read

end Reading

/-- A plain text that is read has accepted characters only. -/
theorem accepted_of_ofPlainText? {text : List Char} {value : Decimal}
    (read : ofPlainText? text = some value) :
    ∀ c ∈ text, Accepted c := by
  unfold ofPlainText? at read
  split at read
  · exact List.forall_mem_cons.mpr ⟨.inr (by simp), Reading.accepted_of_run read⟩
  · exact List.forall_mem_cons.mpr ⟨.inr (by simp), Reading.accepted_of_run read⟩
  · exact Reading.accepted_of_run read

/-- An exponent that is read has accepted characters only. -/
theorem accepted_of_natural? {limit value : Nat} {text : List Char}
    (read : Text.natural? limit text = some value) :
    ∀ c ∈ text, Accepted c := by
  have digits {row : List Char}
      (read : Text.atMost? limit (Text.digits? 10 Text.digit? row) = some value) :
      ∀ c ∈ row, Accepted c := by
    have spelled := (Option.filter_eq_some_iff.mp read).1
    unfold Text.digits? at spelled
    split at spelled
    · cases spelled
    · exact fun c member => .inl (Text.isDigit_of_positional? spelled c member)
  unfold Text.natural? at read
  split at read
  · exact List.forall_mem_cons.mpr ⟨.inr (by simp), digits read⟩
  · exact digits read

/-- A text with an exponent that is read has accepted characters only. -/
theorem accepted_of_ofExponentText? {text : List Char} {value : Decimal}
    (read : ofExponentText? text = some value) :
    ∀ c ∈ text, Accepted c := by
  unfold ofExponentText? at read
  rw [List.span_eq_takeWhile_dropWhile] at read
  split at read
  · cases read
  · next base mark exponent parts =>
    obtain ⟨baseEq, behind⟩ := Prod.mk.inj parts
    have whole : text = base ++ mark :: exponent := by
      rw [← baseEq, ← behind, List.takeWhile_append_dropWhile]
    have marked : mark = 'e' ∨ mark = 'E' := by
      have stops := List.head?_dropWhile_not (fun c => decide (c ≠ 'e' ∧ c ≠ 'E')) text
      rw [behind] at stops
      simpa [imp_iff_not_or] using stops
    obtain ⟨number, baseRead, shifted⟩ := Option.bind_eq_some_iff.mp read
    have exponentAccepted : ∀ c ∈ exponent, Accepted c := by
      split at shifted
      · obtain ⟨places, placesRead, -⟩ := Option.bind_eq_some_iff.mp shifted
        exact List.forall_mem_cons.mpr ⟨.inr (by simp), accepted_of_natural? placesRead⟩
      · obtain ⟨places, placesRead, -⟩ := Option.bind_eq_some_iff.mp shifted
        exact accepted_of_natural? placesRead
    rw [whole]
    intro c member
    rcases List.mem_append.mp member with front | back
    · exact accepted_of_ofPlainText? baseRead c front
    · rcases List.mem_cons.mp back with rfl | back
      · exact .inr (by rcases marked with rfl | rfl <;> simp)
      · exact exponentAccepted c back

/-- A decimal is written with the characters that may stand in it. -/
theorem accepted_of_ofText? {text : String} {value : Decimal} (read : ofText? text = some value) :
    ∀ c ∈ text.toList, Accepted c := by
  rcases Option.or_eq_some_iff.mp read with plain | ⟨-, exponent⟩
  · exact accepted_of_ofPlainText? plain
  · exact accepted_of_ofExponentText? exponent

/-- No decimal is read from an empty text. -/
theorem ne_empty_of_ofText? {text : String} {value : Decimal} (read : ofText? text = some value) :
    text.toList ≠ [] := by
  intro empty
  rw [ofText?, empty] at read
  cases read

/-- A decimal has no blanks around it to drop. -/
theorem trim_of_ofText? {text : String} {value : Decimal} (read : ofText? text = some value) :
    Text.trim text.toList = text.toList := by
  have solid {chars : List Char} (inside : ∀ c ∈ chars, Accepted c) :
      Text.dropBlanks chars = chars := by
    cases chars with
    | nil => rfl
    | cons c rest => exact Text.dropBlanks_cons (inside c List.mem_cons_self).not_blank rest
  have all := accepted_of_ofText? read
  rw [Text.trim, solid all, solid fun c member => all c (List.mem_reverse.mp member),
    List.reverse_reverse]

end Prepaid.Decimal
