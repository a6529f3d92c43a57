import Prepaid.Command.Table
import Prepaid.Proofs.Binary64.Detour
import Prepaid.Proofs.Text.Bytes

/-!
# Amounts in command files

Reading the amount of a command guesses what its cell holds: an integer of 64 bits, an
integer of 128 bits, which is refused, a binary64 number, or text. `Command.Kept` says
when the number that is read is still the one that is written: for integers of 64 bits,
and for other numbers as far as the shortest text of the nearest binary64 number spells
them, which is sure up to fifteen significant digits and ruled out beyond seventeen.
-/

namespace Prepaid

namespace Command

/-! ## Texts -/

/-- A text that is read as an integer within a limit, or as a natural within another one. -/
def IsInteger (signed unsigned : Nat) (text : List Char) : Prop :=
  (Text.integer? signed text).isSome ∨ (Text.natural? unsigned text).isSome

/-- An integer of 64 bits, with or without a sign. -/
abbrev IsWord : List Char → Prop :=
  IsInteger Text.maxInt64 Text.maxNat64

/-- An integer of 128 bits, with or without a sign. -/
abbrev IsLong : List Char → Prop :=
  IsInteger maxInt128 maxNat128

/-- What is read as an integer is a numeral without a point. -/
theorem IsInteger.exists_numeral {signed unsigned : Nat} {text : List Char}
    (integer : IsInteger signed unsigned text) :
    ∃ numeral : Text.Numeral, numeral.places = none ∧ numeral.chars = text := by
  rcases integer with signed | unsigned
  · obtain ⟨value, read⟩ := Option.isSome_iff_exists.mp signed
    exact Text.Numeral.exists_of_integer? read
  · obtain ⟨value, read⟩ := Option.isSome_iff_exists.mp unsigned
    exact Text.Numeral.exists_of_natural? read

/-- Whether the number that is read of an amount is the one that is written. -/
inductive Kept (text : List Char) (written : Decimal) : Prop where
  /-- Integers of 64 bits are read as integers. -/
  | word (word : IsWord text)
  /-- What is no binary64 number, such as digits with underscores between them, is read as it
  stands. -/
  | text (short : ¬ IsLong text) (other : Binary64.ofChars? text = none)
  /-- Any other number is read from the shortest text of the nearest binary64 number. -/
  | binary (value : Binary64) (again : Decimal) (short : ¬ IsLong text)
    (nearest : Binary64.ofChars? text = some (.finite value))
    (reread : Decimal.ofText? (String.ofList value.plainChars) = some again)
    (same : again.worth = written.worth)

section Texts

variable {numeral : Text.Numeral} {text : List Char} {written : Decimal}

/-- A numeral without a point is a word exactly if it fits 64 bits, signed or unsigned. -/
theorem isWord_iff (integer : numeral.places = none) :
    IsWord numeral.chars ↔ -2 ^ 63 ≤ numeral.mantissa ∧ numeral.mantissa < 2 ^ 64 := by
  refine (Text.Numeral.isSome_integer_or_natural_iff integer (by decide)).trans ?_
  simp only [Text.maxInt64, Text.maxNat64]
  omega

/-- A numeral without a point is long exactly if it fits 128 bits, signed or unsigned. -/
theorem isLong_iff (integer : numeral.places = none) :
    IsLong numeral.chars ↔ -2 ^ 127 ≤ numeral.mantissa ∧ numeral.mantissa < 2 ^ 128 := by
  refine (Text.Numeral.isSome_integer_or_natural_iff integer (by decide)).trans ?_
  simp only [maxInt128, maxNat128]
  omega

/-- What fits 64 bits fits 128. -/
theorem IsWord.isLong (word : IsWord text) : IsLong text := by
  obtain ⟨numeral, integer, rfl⟩ := word.exists_numeral
  rw [isWord_iff integer] at word
  rw [isLong_iff integer]
  omega

/-- What has a point is no integer. -/
theorem not_isInteger_of_point (point : numeral.places ≠ none) {signed unsigned : Nat} :
    ¬ IsInteger signed unsigned numeral.chars := by
  intro integer
  obtain ⟨places, placesEq⟩ := Option.ne_none_iff_exists'.mp point
  obtain ⟨other, otherInteger, same⟩ := integer.exists_numeral
  have member : '.' ∈ other.chars := by
    rw [same, Text.Numeral.chars, Text.Numeral.unsigned, placesEq]
    simp
  rcases Text.Numeral.mem_chars_of_integer otherInteger member with digit | plus | minus
  · cases digit
  · cases plus
  · cases minus

/-- The integers that are decimals have no more than 128 bits. -/
theorem isLong_of_decimal (integer : numeral.places = none)
    (spelled : Decimal.ofText? (String.ofList numeral.chars) = some written) :
    IsLong numeral.chars := by
  obtain ⟨fits, -, -⟩ := Decimal.ofText?_integer integer spelled
  have size := numeral.natAbs_mantissa
  rw [isLong_iff integer]
  simp only [Decimal.maxCoefficient] at fits
  omega

/-- No numeral is the name of a truth value. -/
theorem not_name (spelled : Decimal.ofText? (String.ofList text) = some written) :
    ¬ (text = "true".toList ∨ text = "false".toList) := by
  rintro (rfl | rfl) <;> cases spelled

/-- An integer of 64 bits is read as the decimal that is written. -/
theorem readAmount?_word (spelled : Decimal.ofText? (String.ofList text) = some written)
    (word : IsWord text) :
    ∃ amount, readAmount? text = some amount ∧ amount.worth = written.worth := by
  obtain ⟨numeral, integer, rfl⟩ := word.exists_numeral
  obtain ⟨fits, mantissaEq, scaleEq⟩ := Decimal.ofText?_integer integer spelled
  have made : Decimal.ofMantissa? numeral.mantissa 0 = some _ :=
    dif_pos ⟨by rwa [numeral.natAbs_mantissa], Nat.zero_le _⟩
  refine ⟨_, ?_,
    (Decimal.worth_of_ofMantissa? made).trans (by rw [Decimal.worth, mantissaEq, scaleEq])⟩
  rw [readAmount?, if_neg (not_name spelled), ← made]
  split
  · next read => rw [Text.Numeral.integer?_chars_eq_some integer read]
  · next read => rw [Text.Numeral.natural?_chars_eq_some integer read]
  · next notSigned notUnsigned =>
    rcases word with signed | unsigned
    · rw [notSigned] at signed
      cases signed
    · rw [notUnsigned] at unsigned
      cases unsigned

/-- Integers beyond 64 bits are refused. -/
theorem readAmount?_long (notWord : ¬ IsWord text) (long : IsLong text) :
    readAmount? text = none := by
  unfold readAmount?
  split
  · rfl
  · split
    · next read => exact (notWord (.inl (by rw [read]; rfl))).elim
    · next read => exact (notWord (.inr (by rw [read]; rfl))).elim
    · rw [if_pos ((Bool.or_eq_true _ _).mpr long)]

/-- Any other text that spells a decimal is read by way of binary64, unless it is no number
there. -/
theorem readAmount?_short (spelled : Decimal.ofText? (String.ofList text) = some written)
    (short : ¬ IsLong text) :
    readAmount? text =
      match Binary64.ofChars? text with
      | some (.finite value) => Decimal.ofText? (String.ofList value.plainChars)
      | some _ => none
      | none => some written := by
  have notWord : ¬ IsWord text := fun word => short word.isLong
  rw [readAmount?, if_neg (not_name spelled)]
  split
  · next read => exact (notWord (.inl (by rw [read]; rfl))).elim
  · next read => exact (notWord (.inr (by rw [read]; rfl))).elim
  · refine (if_neg fun long => short ((Bool.or_eq_true _ _).mp long)).trans ?_
    cases Binary64.ofChars? text with
    | none => exact spelled
    | some reading => cases reading <;> rfl

/-- The exact condition for reading the number that is written. -/
theorem readAmount?_exact_iff (spelled : Decimal.ofText? (String.ofList text) = some written) :
    (∃ amount, readAmount? text = some amount ∧ amount.worth = written.worth) ↔
    Kept text written := by
  constructor
  · rintro ⟨amount, read, same⟩
    by_cases word : IsWord text
    · exact .word word
    · have short : ¬ IsLong text := by
        intro long
        rw [readAmount?_long word long] at read
        cases read
      rw [readAmount?_short spelled short] at read
      split at read
      · next value nearest => exact .binary value amount short nearest read same
      · cases read
      · next other => exact .text short other
  · rintro (word | ⟨short, other⟩ | ⟨value, again, short, nearest, reread, same⟩)
    · exact readAmount?_word spelled word
    · exact ⟨written, by rw [readAmount?_short spelled short, other], rfl⟩
    · exact ⟨again, by rw [readAmount?_short spelled short, nearest, ← reread], same⟩

end Texts

/-! ## Rows -/

namespace Reading

variable {record index : Nat} {names : List String} {cells front back : List (List Char)}
    {reading result : Reading}

/-- Reading another column neither looks at the amount nor changes it. -/
theorem readColumn_amount (reading : Reading) {column : Column} (other : column ≠ .amount)
    (cell : Option (List Char)) (amount : Option Decimal) :
    ({ reading with amount } : Reading).readColumn record index cell column =
      (reading.readColumn record index cell column).map fun result => { result with amount } := by
  cases column with
  | op =>
    simp only [readColumn]
    split <;> rfl
  | user =>
    simp only [readColumn]
    cases readCell (.unreadable record (some index)) readNatural? cell <;> rfl
  | order =>
    simp only [readColumn]
    cases readCell (.unreadable record (some index)) readNatural? cell <;> rfl
  | amount => exact (other rfl).elim
  | instant =>
    simp only [readColumn]
    cases readCell (.unreadable record none) Instant.ofChars? cell <;> rfl
  | session =>
    simp only [readColumn]
    cases readCell (.unreadable record none) (fun text => some (String.ofList text)) cell <;> rfl
  | event =>
    simp only [readColumn]
    cases readCell (.unreadable record none) (fun text => some (String.ofList text)) cell <;> rfl

/-- What is built after a computation is built from its result. -/
theorem exists_of_bind_pure {ε α β : Type} {made : Except ε α} {build : α → β} {built : β}
    (bound : (made >>= fun value => pure (build value)) = .ok built) :
    ∃ value, build value = built := by
  cases made with
  | error fault => cases bound
  | ok value =>
    cases bound
    exact ⟨value, rfl⟩

/-- Reading a cell does not note its column as seen. -/
theorem seen_readColumn {column : Column} {cell : Option (List Char)}
    (read : reading.readColumn record index cell column = .ok result) :
    result.seen = reading.seen := by
  cases column with
  | op =>
    simp only [readColumn] at read
    split at read <;> cases read
    rfl
  | user | order | amount | instant | session | event =>
    obtain ⟨value, rfl⟩ := exists_of_bind_pure read
    rfl

/-- Once the amount has come up, reading further columns neither looks at it nor changes it. -/
theorem readNamed_amount {name : String} (seen : Column.amount ∈ reading.seen)
    (cell : Option (List Char)) (amount : Option Decimal) :
    readNamed record { reading with amount } index name cell =
      (readNamed record reading index name cell).map fun result => { result with amount } := by
  unfold readNamed
  split
  · next column found =>
    split
    · rfl
    · next unseen =>
      have other : column ≠ .amount := fun same => unseen (same ▸ seen)
      exact readColumn_amount { reading with seen := column :: reading.seen } other cell amount
  · cases cell <;> rfl

/-- An amount that has come up stays noted. -/
theorem seen_readNamed {name : String} {cell : Option (List Char)}
    (seen : Column.amount ∈ reading.seen)
    (read : readNamed record reading index name cell = .ok result) :
    Column.amount ∈ result.seen := by
  unfold readNamed at read
  split at read
  · split at read
    · cases read
    · rw [seen_readColumn read]
      exact List.mem_cons_of_mem _ seen
  · cases cell <;> cases read
    exact seen

/-- Once the column of the amount has come up, the other columns leave the amount alone. -/
theorem readAll_amount (seen : Column.amount ∈ reading.seen) (amount : Option Decimal) :
    readAll record index names cells { reading with amount } =
      (readAll record index names cells reading).map fun result => { result with amount } := by
  induction names generalizing index cells reading with
  | nil => rfl
  | cons name names ih =>
    rw [readAll, readAll, readNamed_amount seen]
    cases read : readNamed record reading index name cells.head? with
    | error fault => rfl
    | ok next => exact ih (seen_readNamed seen read)

/-- A filled amount cell is read as one, or its record is refused. -/
theorem readColumn_amountCell {text : List Char} (nonempty : text ≠ []) :
    reading.readColumn record index (some text) .amount =
      match readAmount? text with
      | some amount => .ok { reading with amount := some amount }
      | none => .error (.unreadable record none) := by
  cases text with
  | nil => exact (nonempty rfl).elim
  | cons c rest =>
    simp only [readColumn, readCell]
    cases readAmount? (c :: rest) <;> rfl

/-- Filling in an empty amount cell changes the amount of the command and nothing else. -/
theorem readAll_firstAmount {others : List String}
    (read : readAll record index ("amount" :: others) ([] :: back) reading = .ok result)
    {text : List Char} (nonempty : text ≠ []) :
    readAll record index ("amount" :: others) (text :: back) reading =
      match readAmount? text with
      | some amount => .ok { result with amount := some amount }
      | none => .error (.unreadable record none) := by
  have column : Column.ofName? "amount" = some .amount := by decide
  rw [readAll] at read ⊢
  simp only [readNamed, column, List.head?_cons, List.tail_cons] at read ⊢
  split at read
  · cases read
  · next unseen =>
    rw [if_neg unseen]
    let begun : Reading := { reading with seen := Column.amount :: reading.seen }
    have seen : Column.amount ∈ begun.seen := List.mem_cons_self
    change readAll record (index + 1) others back { begun with amount := none } = _ at read
    change (begun.readColumn record index (some text) .amount >>= _) = _
    rw [readColumn_amountCell nonempty]
    cases readAmount? text with
    | none => rfl
    | some amount =>
      change readAll record (index + 1) others back { begun with amount := some amount } = _
      rw [readAll_amount seen] at read ⊢
      cases rest : readAll record (index + 1) others back begun with
      | error fault =>
        rw [rest] at read
        cases read
      | ok following =>
        rw [rest] at read
        cases read
        rfl

/-- The cell of the amount decides about the amount alone. -/
theorem readAll_amountCell (named : names[front.length]? = some "amount")
    (read : readAll record index names (front ++ [] :: back) reading = .ok result)
    {text : List Char} (nonempty : text ≠ []) :
    readAll record index names (front ++ text :: back) reading =
      match readAmount? text with
      | some amount => .ok { result with amount := some amount }
      | none => .error (.unreadable record none) := by
  induction front generalizing index names reading with
  | nil =>
    obtain ⟨others, rfl⟩ : ∃ others, names = "amount" :: others := by
      cases names with
      | nil => cases named
      | cons name others => exact ⟨others, by cases named; rfl⟩
    exact readAll_firstAmount read nonempty
  | cons first front ih =>
    cases names with
    | nil => cases named
    | cons name names =>
      rw [List.cons_append, readAll] at read ⊢
      simp only [List.head?_cons, List.tail_cons] at read ⊢
      cases next : readNamed record reading index name (some first) with
      | error fault =>
        rw [next] at read
        cases read
      | ok following =>
        rw [next] at read
        exact ih named read

end Reading

section Records

variable {header : Option (List String)} {record index : Nat} {front back : List Csv.Cell}
  {cell : Csv.Cell} {texts : List (List Char)} {text : List Char} {command : Command}

/-- A cell that can be read may be replaced by another one. -/
theorem cellTexts_replace (read : cellTexts record index (front ++ [] :: back) = .ok texts) :
    ∃ before after, before.length = front.length ∧ texts = before ++ [] :: after ∧
      ∀ {cell text}, cellText? cell = some text →
        cellTexts record index (front ++ cell :: back) = .ok (before ++ text :: after) := by
  induction front generalizing index texts with
  | nil =>
    have empty : cellText? [] = some [] := by decide
    rw [List.nil_append, cellTexts, empty] at read
    simp only at read
    cases rest : cellTexts record (index + 1) back with
    | error fault =>
      rw [rest] at read
      cases read
    | ok after =>
      rw [rest] at read
      cases read
      refine ⟨[], after, rfl, rfl, ?_⟩
      intro cell text given
      rw [List.nil_append, cellTexts, given]
      simp only [rest]
      rfl
  | cons first front ih =>
    rw [List.cons_append, cellTexts] at read
    split at read
    · next firstText firstRead =>
      cases rest : cellTexts record (index + 1) (front ++ [] :: back) with
      | error fault =>
        rw [rest] at read
        cases read
      | ok following =>
        rw [rest] at read
        cases read
        obtain ⟨before, after, length, rfl, replace⟩ := ih rest
        refine ⟨firstText :: before,
          after, by rw [List.length_cons, length, List.length_cons], rfl, ?_⟩
        intro cell text given
        rw [List.cons_append, cellTexts, firstRead]
        simp only [replace given]
        rfl
    · cases read

/-- A row with an amount is read like the row without it, with what its cell is read as. -/
theorem ofRecord_amount
    (named : (header.getD (Column.all.map Column.name))[front.length]? = some "amount")
    (others : ofRecord header record (front ++ [] :: back) = .ok command)
    (given : cellText? cell = some text) (nonempty : text ≠ []) :
    ofRecord header record (front ++ cell :: back) =
      match readAmount? text with
      | some amount => .ok { command with amount := some amount }
      | none => .error (.unreadable record none) := by
  unfold ofRecord at others ⊢
  cases read : cellTexts record 0 (front ++ [] :: back) with
  | error fault =>
    rw [read] at others
    cases others
  | ok texts =>
    obtain ⟨before, after, length, rfl, replace⟩ := cellTexts_replace read
    rw [read] at others
    rw [replace given]
    have same : (before ++ text :: after).length = (before ++ [] :: after).length := by simp
    have inNames :
        (header.getD ((Column.all.map Column.name).take
          (before ++ [] :: after).length))[before.length]? =
        some "amount" := by
      rw [length]
      cases header with
      | some names => exact named
      | none =>
        have within : front.length < (before ++ [] :: after).length := by
          rw [← length, List.length_append, List.length_cons]
          omega
        exact (List.getElem?_take_of_lt within).trans named
    simp only [bind, Except.bind, pure, Except.pure, same] at others ⊢
    cases all : Reading.readAll record 0
        (header.getD ((Column.all.map Column.name).take (before ++ [] :: after).length))
          (before ++ [] :: after) {} with
    | error fault =>
      rw [all] at others
      cases others
    | ok result =>
      rw [all] at others
      rw [Reading.readAll_amountCell inNames all nonempty]
      cases readAmount? text with
      | none => rfl
      | some amount =>
        simp only at others ⊢
        split at others
        · cases others
        · next complete =>
          rw [if_neg complete]
          simp only [Reading.command?] at others ⊢
          cases kind : result.kind with
          | none =>
            rw [kind] at others
            cases others
          | some kind =>
            rw [‹result.kind = _›] at others
            cases others
            rfl

/-! ## Amounts of rows -/

/-- The text of a decimal is the whole text of its cell. -/
theorem cellText?_of_decimal {text : String} {written : Decimal}
    (spelled : Decimal.ofText? text = some written) :
    cellText? (Text.bytes text) = some text.toList := by
  rw [cellText?, Text.ofBytes?_bytes, Option.map_some, Decimal.trim_of_ofText? spelled]

/-- A row is read as a command with an amount that is the number written, and moves the same
money. -/
def ReadsAmount (header : Option (List String)) (record : Nat) (row : List Csv.Cell)
    (command : Command) (written : Decimal) : Prop :=
  ∃ amount, ofRecord header record row = .ok { command with amount := some amount } ∧
    amount.worth = written.worth ∧ (Money.ofDecimal amount).cents = (Money.ofDecimal written).cents

section Amounts

variable {text : String} {written : Decimal}
  (named : (header.getD (Column.all.map Column.name))[front.length]? = some "amount")
  (others : ofRecord header record (front ++ [] :: back) = .ok command)
  (spelled : Decimal.ofText? text = some written)

include named others spelled

/-- Whether a row is read as written is decided by its amount cell alone. -/
theorem readsAmount_iff :
    ReadsAmount header record (front ++ Text.bytes text :: back) command written ↔
    ∃ amount, readAmount? text.toList = some amount ∧ amount.worth = written.worth := by
  have row := ofRecord_amount named others (cellText?_of_decimal spelled)
    (Decimal.ne_empty_of_ofText? spelled)
  constructor
  · rintro ⟨amount, read, same, -⟩
    rw [row] at read
    split at read
    · next otherRead =>
      cases read
      exact ⟨amount, otherRead, same⟩
    · cases read
  · rintro ⟨amount, read, same⟩
    exact ⟨amount, by rw [row, read], same, Money.cents_ofDecimal_congr same⟩

/-- An amount in a row is read as the number that is written exactly if its text is kept by the
guesses at its type. Of the integers these are the ones of 64 bits, and a row with a larger one is
refused. A numeral with a point is kept if it has at most fifteen significant digits, and is not if
it has more than seventeen. -/
theorem amount_read_exactly_iff :
    (ReadsAmount header record (front ++ Text.bytes text :: back) command written ↔
      Kept text.toList written) ∧
      (∀ numeral : Text.Numeral, numeral.chars = text.toList → numeral.places = none →
        (ReadsAmount header record (front ++ Text.bytes text :: back) command written ↔
          -2 ^ 63 ≤ numeral.mantissa ∧ numeral.mantissa < 2 ^ 64) ∧
        (¬ (-2 ^ 63 ≤ numeral.mantissa ∧ numeral.mantissa < 2 ^ 64) →
          ofRecord header record (front ++ Text.bytes text :: back) =
            .error (.unreadable record none))) ∧
      (∀ numeral : Text.Numeral, numeral.chars = text.toList → numeral.places ≠ none →
        written.worth = numeral.worth →
          (written.HasDigits 15 →
            ReadsAmount header record (front ++ Text.bytes text :: back) command written) ∧
          (¬ written.HasDigits 17 →
            ¬ ReadsAmount header record (front ++ Text.bytes text :: back) command written)) := by
  have listed : Decimal.ofText? (String.ofList text.toList) = some written := by
    rwa [String.ofList_toList]
  have reads := readsAmount_iff named others spelled
  have row := ofRecord_amount named others (cellText?_of_decimal spelled)
    (Decimal.ne_empty_of_ofText? spelled)
  refine ⟨reads.trans (readAmount?_exact_iff listed), ?_, ?_⟩
  · intro numeral chars integer
    rw [reads, row, ← chars, ← isWord_iff integer]
    rw [← chars] at listed
    have refused (notWord : ¬ IsWord numeral.chars) : readAmount? numeral.chars = none :=
      readAmount?_long notWord (isLong_of_decimal integer listed)
    refine ⟨⟨?_, readAmount?_word listed⟩, fun notWord => by rw [refused notWord]⟩
    rintro ⟨amount, read, -⟩
    by_contra notWord
    rw [refused notWord] at read
    cases read
  · intro numeral chars point same
    rw [reads, readAmount?_exact_iff listed, ← chars]
    constructor
    · intro few
      obtain ⟨value, again, nearest, reread, worth⟩ := Binary64.numeral_survives same few
      exact .binary value again (not_isInteger_of_point point) nearest reread worth
    · rintro many (word | ⟨-, other⟩ | ⟨value, again, -, nearest, reread, worth⟩)
      · exact not_isInteger_of_point point word
      · obtain ⟨value, nearest⟩ := Binary64.exists_nearest_of_many same many
        rw [other] at nearest
        cases nearest
      · exact Binary64.numeral_lost same many nearest reread worth

end Amounts

end Records

/-- A hundred with two places has one significant digit. -/
theorem hundred_is_read :
    ReadsAmount (some ["op", "user", "amount"]) 1
      [Text.bytes "deposit", Text.bytes "1", Text.bytes "100.00"]
      { kind := .deposit, user := some ⟨1⟩ } { coefficient := 10000, scale := 2 } := by
  have named : ((some ["op", "user", "amount"]).getD (Column.all.map Column.name))[
      [Text.bytes "deposit", Text.bytes "1"].length]? = some "amount" := rfl
  have others :
      ofRecord (some ["op", "user", "amount"]) 1
        ([Text.bytes "deposit", Text.bytes "1"] ++ [] :: []) =
        .ok { kind := .deposit, user := some ⟨1⟩ } := by decide +kernel
  have spelled : Decimal.ofText? "100.00" = some { coefficient := 10000, scale := 2 } := by
    decide +kernel
  let numeral : Text.Numeral := ⟨.absent, ['1', '0', '0'], some ['0', '0'],
    List.all_eq_true.mp rfl, List.all_eq_true.mp rfl, by decide⟩
  exact ((amount_read_exactly_iff named others spelled).2.2 numeral (by decide +kernel)
    (by decide) rfl).1
    ⟨1, 4, by decide, by decide⟩

/-- An amount of twenty digits that is one when it is rounded to cents is read as an amount that is
a cent more. -/
theorem longAmount_gains_cent :
    ofRecord (some ["op", "user", "amount"]) 1
        [Text.bytes "deposit", Text.bytes "1", Text.bytes ""] =
        .ok { kind := .deposit, user := some ⟨1⟩ } ∧
      Decimal.ofText? "1.0049999999999999999" =
        some { coefficient := 10049999999999999999, scale := 19 } ∧
      (Money.ofDecimal { coefficient := 10049999999999999999, scale := 19 }).cents = 100 ∧
      ofRecord (some ["op", "user", "amount"]) 1
          [Text.bytes "deposit", Text.bytes "1", Text.bytes "1.0049999999999999999"] =
        .ok
          { kind := .deposit, user := some ⟨1⟩,
            amount := some { coefficient := 1005, scale := 3 } } ∧
      (Money.ofDecimal { coefficient := 1005, scale := 3 }).cents = 101 := by
  decide +kernel

end Command

end Prepaid
