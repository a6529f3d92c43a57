import Prepaid.Command.Table
import Prepaid.Proofs.Csv.Lines
import Prepaid.Proofs.Ident
import Prepaid.Proofs.Money.Nearest
import Prepaid.Proofs.Time.Text
import Prepaid.Report

/-!
# Reports, read back

No cell of a report needs quotes, so the text of a report is read as its header and a
record for each row. A record of a balance tells whose it is and its three sums, and a
record of an entry tells everything that is shown of the entry.
-/

namespace Prepaid

/-! ## Cells -/

/-- The characters of a written decimal. -/
theorem Decimal.mem_toChars {value : Decimal} {c : Char} (member : c ∈ value.toChars) :
    c.isDigit = true ∨ c = '-' ∨ c = '.' := by
  have digits {c : Char} (inside : c ∈ value.digitParts.1 ++ value.digitParts.2) :
      c.isDigit = true := by
    rw [digitParts_append] at inside
    exact Text.isDigit_ofNatPadded c inside
  rw [toChars_eq, unsignedChars, List.mem_append, List.mem_append] at member
  rcases member with sign | whole | places
  · split at sign
    · exact .inr (.inl (List.mem_singleton.mp sign))
    · cases sign
  · exact .inl (digits (List.mem_append_left _ whole))
  · split at places
    · cases places
    · rcases List.mem_cons.mp places with rfl | behind
      · exact .inr (.inr rfl)
      · exact .inl (digits (List.mem_append_right _ behind))

/-- What a printed number is read as is worth the same. -/
theorem Decimal.worth_reread (value : Decimal) : value.reread.worth = value.worth := by
  rw [worth, worth, mantissa_reread]
  rfl

/-- The text of money is read as a number of the same worth. -/
theorem Money.ofText?_toText (money : Money) :
    ∃ value, Decimal.ofText? money.toText = some value ∧ value.worth = money.value.worth := by
  refine ⟨_, Decimal.ofText?_toText money.value.quantize, ?_⟩
  rw [Decimal.worth_reread, Decimal.worth_quantize, Decimal.hundredths_quantize _ money.places_le,
    Decimal.worth_of_few money.places_le]

/-- A natural is read back within its limit. -/
theorem Text.natural?_ofNat {limit value : Nat} (fits : value ≤ limit) :
    natural? limit (ofNat value) = some value := by
  have read := digits?_ofNatPadded 0 value
  rw [ofNatPadded, List.leftpad, Nat.zero_sub, List.replicate_zero, List.nil_append] at read
  unfold natural?
  split
  · next rest plus =>
    have sign := isDigit_ofNat '+' (by rw [plus]; exact List.mem_cons_self)
    cases sign
  · rw [read, atMost?, Option.filter_some, if_pos (decide_eq_true fits)]

/-- The written form of a number of 64 bits has its digits. -/
theorem toList_number (number : UInt64) : (toString number).toList = Text.ofNat number.toNat :=
  Nat.toList_repr

/-- Users and orders are read back from their numbers. -/
theorem Command.readNatural?_number (number : UInt64) :
    readNatural? (toString number).toList = some number := by
  rw [toList_number]
  unfold readNatural?
  split
  · next digits hex =>
    have letter :=
      Text.isDigit_ofNat 'x' (by rw [hex]; exact List.mem_cons_of_mem _ List.mem_cons_self)
    cases letter
  · rw [Text.natural?_ofNat (Nat.le_of_lt_succ number.toNat_lt)]
    exact congrArg some UInt64.ofNat_toNat

/-- A kind is read back from its name. -/
@[simp] theorem EntryKind.ofName?_name (kind : EntryKind) : ofName? kind.name = some kind := by
  cases kind <;> rfl

/-- A status is read back from its name. -/
@[simp] theorem EntryStatus.ofName?_name (status : EntryStatus) :
    ofName? status.name = some status := by
  cases status <;> rfl

namespace Csv

/-- A number needs no quotes in a cell. -/
theorem clean_number (number : UInt64) : Clean (toString number).toList := by
  intro c member
  rw [toList_number] at member
  exact ordinary_of_isDigit (Text.isDigit_ofNat c member)

/-- A sum needs no quotes in a cell. -/
theorem clean_money (money : Money) : Clean money.toText.toList := by
  intro c member
  rw [Money.toText, Decimal.toText, String.toList_ofList] at member
  rcases Decimal.mem_toChars member with digit | rfl | rfl
  · exact ordinary_of_isDigit digit
  · decide
  · decide

/-- An identifier needs no quotes in a cell. -/
theorem clean_id (id : Uuid) : Clean id.toText.toList := by
  intro c member
  rcases Uuid.mem_toText member with rfl | digit
  · decide
  · refine ⟨?_, ?_, ?_, ?_⟩ <;>
      · rintro rfl
        cases digit

/-- An instant needs no quotes in a cell. -/
theorem clean_instant (instant : Instant) : Clean instant.toText.toList := by
  intro c member
  rw [Instant.toText, String.toList_ofList] at member
  have marks : Clean Instant.marks := by decide
  have zone : Clean "+00:00".toList := by decide
  rcases Instant.mem_rfc3339Chars member with digit | mark | offset
  · exact ordinary_of_isDigit digit
  · exact marks c mark
  · exact zone c offset

end Csv

namespace Report

/-! ## Lines -/

/-- Lines that are printed behind a header are read as the header and a record for each line. The
characters of the header are looked at one by one; there are too many below the bound to look at
all of those. -/
theorem records_printed {α : Type} {header : List String} {cells : α → List String}
    (low : header.all (fun cell => cell.toList.all fun c => c.toNat < 0xf000) = true)
    (first : Csv.IsRecord (header.map String.toList))
    (each : ∀ row, Csv.IsRecord ((cells row).map String.toList)) (rows : List α) :
    Csv.records (Text.bytes (String.join ((header :: rows.map cells).map Csv.line))) =
      (header :: rows.map cells).map (List.map Text.bytes) := by
  have unmarked : ∀ cell ∈ header, ∀ c ∈ cell.toList, c.toNat < 0xf000 := by
    simpa only [List.all_eq_true, decide_eq_true_eq] using low
  refine Csv.records_lines ?_ unmarked
  rw [List.forall_mem_cons, List.forall_mem_map]
  exact ⟨first, fun row _ => each row⟩

/-! ## Balances -/

/-- The report is its header and a line for each balance, in the order of users. -/
theorem balances_eq (rows : List Balance) :
    balances rows =
      String.join ((balanceHeader :: (sortBalances rows).map balanceCells).map Csv.line) := by
  unfold balances table
  cases rows with
  | nil => simp [sortBalances]
  | cons row rest =>
    have some : (sortBalances (row :: rest)).map balanceCells ≠ [] := by
      rw [← List.length_pos_iff, List.length_map, sortBalances, List.length_mergeSort]
      exact Nat.succ_pos _
    rw [List.isEmpty_cons, if_neg Bool.false_ne_true, if_neg (by rwa [List.isEmpty_iff]),
      String.empty_append]

/-- The cells of a balance are a record. -/
theorem isRecord_balanceCells (balance : Balance) :
    Csv.IsRecord ((balanceCells balance).map String.toList) where
  clean := by
    simp only [balanceCells, List.map_cons, List.map_nil, List.forall_mem_cons, List.not_mem_nil,
      false_implies, implies_true, and_true]
    exact ⟨Csv.clean_number balance.owner.val, Csv.clean_money _, Csv.clean_money _,
      Csv.clean_money _⟩
  filled := by
    refine ⟨_, List.mem_cons_self, ?_⟩
    change (toString balance.owner.val).toList ≠ []
    rw [toList_number]
    exact Text.ofNat_ne_nil _

/-- The bytes of a report are read as its header and a record for each balance. -/
theorem records_balances (rows : List Balance) :
    Csv.records (Text.bytes (balances rows)) =
      (balanceHeader :: (sortBalances rows).map balanceCells).map (List.map Text.bytes) := by
  rw [balances_eq]
  exact records_printed (by decide) ⟨by decide, by decide⟩ isRecord_balanceCells _

/-- What a record of a report says: a user and three numbers. -/
def readRecord? (record : List Csv.Cell) : Option (UserId × Decimal × Decimal × Decimal) :=
  match record.mapM Text.ofBytes? with
  | some [user, current, held, available] => do
    let user ← Command.readNatural? user.toList
    let current ← Decimal.ofText? current
    let held ← Decimal.ofText? held
    let available ← Decimal.ofText? available
    pure (⟨user⟩, current, held, available)
  | _ => none

/-- A record says what a balance is. -/
def Tells (record : List Csv.Cell) (balance : Balance) : Prop :=
  ∃ current held available, readRecord? record = some (balance.owner, current, held, available) ∧
    current.worth = balance.current.value.worth ∧ held.worth = balance.held.value.worth ∧
    available.worth = balance.available.value.worth

/-- The record of a balance says what the balance is. -/
theorem tells_balanceCells (balance : Balance) :
    Tells ((balanceCells balance).map Text.bytes) balance := by
  obtain ⟨current, currentRead, currentWorth⟩ := balance.current.ofText?_toText
  obtain ⟨held, heldRead, heldWorth⟩ := balance.held.ofText?_toText
  obtain ⟨available, availableRead, availableWorth⟩ := balance.available.ofText?_toText
  have ownerRead : Command.readNatural? (toString balance.owner).toList = some balance.owner.val :=
    Command.readNatural?_number _
  refine ⟨current, held, available, ?_, currentWorth, heldWorth, availableWorth⟩
  simp [readRecord?, balanceCells, ownerRead, currentRead, heldRead, availableRead]

/-- The header says nothing of a balance. -/
theorem not_tells_header (balance : Balance) : ¬ Tells (balanceHeader.map Text.bytes) balance := by
  rintro ⟨current, held, available, read, _⟩
  have none : readRecord? (balanceHeader.map Text.bytes) = none := by decide
  rw [none] at read
  cases read

/-! ## Entries -/

/-- An order needs no quotes in a cell, and neither does a missing one. -/
theorem clean_order (order : Option OrderId) : Csv.Clean ((order.map toString).getD "").toList := by
  cases order with
  | none => exact fun _ none => nomatch none
  | some order => exact Csv.clean_number order.val

/-- The cells of an entry are a record. -/
theorem isRecord_entryCells (entry : Entry) :
    Csv.IsRecord ((entryCells entry).map String.toList) where
  clean := by
    have kinds : ∀ kind ∈ EntryKind.all, Csv.Clean kind.name.toList := by decide
    have states : ∀ status ∈ EntryStatus.all, Csv.Clean status.name.toList := by decide
    simp only [entryCells, List.map_cons, List.map_nil, List.forall_mem_cons, List.not_mem_nil,
      false_implies, implies_true, and_true]
    exact ⟨Csv.clean_id _, kinds _ (by cases entry.kind <;> decide),
      states _ (by cases entry.status <;> decide), clean_order _, Csv.clean_money _,
      Csv.clean_money _, Csv.clean_money _, Csv.clean_instant _⟩
  filled := by
    refine ⟨_, List.mem_cons_self, fun none => ?_⟩
    have written := entry.id.val.length_toList_toText
    change entry.id.val.toText.toList = [] at none
    rw [none] at written
    cases written

/-- A table of entries has its header if there are any. -/
theorem entries_eq {rows : List Entry} (some : rows ≠ []) :
    entries rows = String.join ((entryHeader :: rows.map entryCells).map Csv.line) := by
  rw [entries, table, if_neg]
  rwa [List.isEmpty_map, List.isEmpty_iff]

/-- The bytes of a table of entries are read as its header and a record for each entry. -/
theorem records_entries {rows : List Entry} (some : rows ≠ []) :
    Csv.records (Text.bytes (entries rows)) =
      (entryHeader :: rows.map entryCells).map (List.map Text.bytes) := by
  rw [entries_eq some]
  exact records_printed (by decide) ⟨by decide, by decide⟩ isRecord_entryCells _

/-- What a record says of an entry. Its sums are numbers as they are written. -/
structure EntryLine where
  id : EntryId
  kind : EntryKind
  status : EntryStatus
  order : Option OrderId
  amount : Decimal
  signedAmount : Decimal
  balanceAfter : Decimal
  createdAt : Instant

/-- The order in a cell, in which there is nothing for an entry without one. -/
def readOrder? (cell : String) : Option (Option OrderId) :=
  if cell = "" then some none
  else (Command.readNatural? cell.toList).map fun number => some ⟨number⟩

/-- Reads a record of an entry. -/
def readEntryLine? (record : List Csv.Cell) : Option EntryLine :=
  match record.mapM Text.ofBytes? with
  | some [id, kind, status, order, amount, signedAmount, balanceAfter, createdAt] => do
    let id ← Uuid.ofText? id
    let kind ← EntryKind.ofName? kind
    let status ← EntryStatus.ofName? status
    let order ← readOrder? order
    let amount ← Decimal.ofText? amount
    let signedAmount ← Decimal.ofText? signedAmount
    let balanceAfter ← Decimal.ofText? balanceAfter
    let createdAt ← Instant.ofText? createdAt
    pure ⟨⟨id⟩, kind, status, order, amount, signedAmount, balanceAfter, createdAt⟩
  | _ => none

/-- A record tells an entry: it is read as what the entry is, with sums of the same worth. -/
def TellsEntry (record : List Csv.Cell) (entry : Entry) : Prop :=
  ∃ amount signedAmount balanceAfter, readEntryLine? record =
      some ⟨entry.id, entry.kind, entry.status, entry.order, amount, signedAmount, balanceAfter,
        entry.createdAt⟩ ∧
    amount.worth = entry.amount.money.value.worth ∧
    signedAmount.worth = entry.signedAmount.value.worth ∧
    balanceAfter.worth = entry.balanceAfter.value.worth

/-- The order of an entry is read back, or that there is none. -/
theorem readOrder?_toString (order : Option OrderId) :
    readOrder? ((order.map toString).getD "") = some order := by
  cases order with
  | none => rfl
  | some order =>
    have filled : toString order.val ≠ "" := by
      rw [Ne, ← String.toList_inj, toList_number]
      exact Text.ofNat_ne_nil _
    rw [readOrder?, Option.map_some, Option.getD_some]
    change (if toString order.val = "" then _ else _) = _
    rw [if_neg filled]
    change (Command.readNatural? (toString order.val).toList).map _ = _
    rw [Command.readNatural?_number, Option.map_some]

/-- The record of an entry tells the entry. -/
theorem tellsEntry_entryCells (entry : Entry) :
    TellsEntry ((entryCells entry).map Text.bytes) entry := by
  obtain ⟨amount, amountRead, amountWorth⟩ := entry.amount.money.ofText?_toText
  obtain ⟨signedAmount, signedRead, signedWorth⟩ := entry.signedAmount.ofText?_toText
  obtain ⟨balanceAfter, balanceRead, balanceWorth⟩ := entry.balanceAfter.ofText?_toText
  have idRead : Uuid.ofText? (toString entry.id) = some entry.id.val := Uuid.ofText?_toText _
  refine ⟨amount, signedAmount, balanceAfter, ?_, amountWorth, signedWorth, balanceWorth⟩
  simp [readEntryLine?, entryCells, idRead, readOrder?_toString, amountRead, signedRead,
    balanceRead]

/-- The header tells no entry. -/
theorem not_tellsEntry_header (entry : Entry) :
    ¬ TellsEntry (entryHeader.map Text.bytes) entry := by
  rintro ⟨amount, signedAmount, balanceAfter, read, _⟩
  have none : readEntryLine? (entryHeader.map Text.bytes) = none := by decide
  rw [none] at read
  cases read

/-- A text shows entries. There is nothing in it if there are none. Otherwise it has its header and
then a line for each entry, in their order; it is read as the header, which is there once, and a
record for each line that tells the entry. -/
structure ShowsEntries (rows : List Entry) (text : String) : Prop where
  nothing : rows = [] → text = ""
  lines : rows ≠ [] →
    text = "id,type,status,order,amount,signed_amount,remaining_balance,created_at\n" ++
      String.join (rows.map fun entry => Csv.line (entryCells entry))
  records : rows ≠ [] → ∃ records,
    Csv.records (Text.bytes text) = entryHeader.map Text.bytes :: records ∧
    List.Forall₂ TellsEntry records rows ∧
    entryHeader.map Text.bytes ∉ records

/-- A table of entries shows each of them once. -/
theorem showsEntries_entries (rows : List Entry) : ShowsEntries rows (entries rows) where
  nothing := by
    rintro rfl
    rfl
  lines some := by
    have header : Csv.line entryHeader =
        "id,type,status,order,amount,signed_amount,remaining_balance,created_at\n" := by decide
    rw [entries_eq some, List.map_cons, String.join_cons, header, List.map_map]
    rfl
  records some := by
    refine ⟨_, records_entries some, ?_, fun again => ?_⟩
    · rw [List.forall₂_map_left_iff, List.forall₂_map_left_iff, List.forall₂_same]
      exact fun entry _ => tellsEntry_entryCells entry
    · obtain ⟨cells, listed, header⟩ := List.mem_map.mp again
      obtain ⟨entry, _, rfl⟩ := List.mem_map.mp listed
      exact not_tellsEntry_header entry (header ▸ tellsEntry_entryCells entry)

end Report

end Prepaid
