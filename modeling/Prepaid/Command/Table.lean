import Prepaid.Binary64.Text
import Prepaid.Command.Basic
import Prepaid.Csv.Records
import Prepaid.Text.Blank
import Prepaid.Text.Bytes

/-!
# Command files

The first record of a command file names the columns, each further one is a
command. Blanks around names and cells do not count, and an empty cell has no
value. Columns are found by their names and may stand in any order; columns with
other names are passed over. Each record is read on its own, from left to right,
up to the first fault.
-/

namespace Prepaid.Command

/-! ## Cells -/

/-- The number of a user or an order, in decimal or behind `0x` in hexadecimal digits. -/
def readNatural? : List Char → Option UInt64
  | '0' :: 'x' :: digits => (Text.hexNatural? Text.maxNat64 digits).map Nat.toUInt64
  | digits => (Text.natural? Text.maxNat64 digits).map Nat.toUInt64

/-- The largest natural of 128 bits. -/
abbrev maxNat128 : Nat := 340282366920938463463374607431768211455

/-- The largest integer of 128 bits. -/
abbrev maxInt128 : Nat := 170141183460469231731687303715884105727

/-- An amount. Integers of 64 bits are exact and larger ones of up to 128 bits are refused. Any
other number is read as a binary64 number, which counts as its shortest text; what is no number to
that reading may still be the text of a decimal. -/
def readAmount? (text : List Char) : Option Decimal :=
  if text = "true".toList ∨ text = "false".toList then none
  else
    match Text.integer? Text.maxInt64 text, Text.natural? Text.maxNat64 text with
    | some value, _ => Decimal.ofMantissa? value 0
    | none, some value => Decimal.ofMantissa? value 0
    | none, none =>
      if (Text.integer? maxInt128 text).isSome || (Text.natural? maxNat128 text).isSome then none
      else
        match Binary64.ofChars? text with
        | some (.finite value) => Decimal.ofText? (String.ofList value.plainChars)
        | some _ => none
        | none => Decimal.ofText? (String.ofList text)

/-! ## Rows -/

/-- The value of a cell: none where the cell is missing or empty, otherwise as its column reads
it. -/
def readCell {α : Type} (fault : TableFault) (read? : List Char → Option α)
    (cell : Option (List Char)) : Except TableFault (Option α) :=
  match cell with
  | none => .ok none
  | some [] => .ok none
  | some text =>
    match read? text with
    | some value => .ok (some value)
    | none => .error fault

/-- What has been read of a command: the columns that have come up, and their values. -/
structure Reading where
  seen : List Column := []
  kind : Option CommandKind := none
  user : Option UserId := none
  order : Option OrderId := none
  amount : Option Decimal := none
  instant : Option Instant := none
  session : Option String := none
  event : Option String := none

namespace Reading

/-- Reads the cell of a column. `record` and `index` tell where it stands. -/
def readColumn (record index : Nat) (cell : Option (List Char)) (reading : Reading) :
    Column → Except TableFault Reading
  | .op =>
    match cell.bind fun text => CommandKind.ofName? (String.ofList text) with
    | some kind => .ok { reading with kind := some kind }
    | none => .error (.unreadable record none)
  | .user => do
    let user ← readCell (.unreadable record (some index)) readNatural? cell
    pure { reading with user := user.map UserId.mk }
  | .order => do
    let order ← readCell (.unreadable record (some index)) readNatural? cell
    pure { reading with order := order.map OrderId.mk }
  | .amount => do
    pure { reading with amount := ← readCell (.unreadable record none) readAmount? cell }
  | .instant => do
    pure { reading with instant := ← readCell (.unreadable record none) Instant.ofChars? cell }
  | .session => do
    pure { reading with
      session := ← readCell (.unreadable record none) (fun text => some (String.ofList text)) cell }
  | .event => do
    pure { reading with
      event := ← readCell (.unreadable record none) (fun text => some (String.ofList text)) cell }

/-- Reads the cell under a name of the header. A known name must not come up twice, and a record
must not end in front of a column with an unknown name. -/
def readNamed (record : Nat) (reading : Reading) (index : Nat) (name : String)
    (cell : Option (List Char)) : Except TableFault Reading :=
  match Column.ofName? name with
  | some column =>
    if column ∈ reading.seen then .error (.unreadable record none)
    else ({ reading with seen := column :: reading.seen } : Reading).readColumn record index cell
      column
  | none =>
    match cell with
    | some _ => .ok reading
    | none => .error (.unreadable record none)

/-- Reads the cells under the names of the header. -/
def readAll (record : Nat) : (index : Nat) → List String → List (List Char) → Reading →
    Except TableFault Reading
  | _, [], _, reading => .ok reading
  | index, name :: names, cells, reading => do
    let reading ← reading.readNamed record index name cells.head?
    readAll record (index + 1) names cells.tail reading

/-- The command that has been read, if its kind was among the columns. -/
def command? (reading : Reading) : Option Command :=
  reading.kind.map fun kind =>
    { kind, user := reading.user, order := reading.order, amount := reading.amount,
      instant := reading.instant, session := reading.session, event := reading.event }

end Reading

/-! ## Files -/

/-- The text of a cell without the blanks around it. -/
def cellText? (cell : Csv.Cell) : Option (List Char) :=
  (Text.ofBytes? cell).map fun text => Text.trim text.toList

/-- The texts of the cells of a record, from a given column on, or the first column that has no
UTF-8 in it. -/
def cellTexts (record : Nat) : (index : Nat) → List Csv.Cell → Except TableFault (List (List Char))
  | _, [] => .ok []
  | index, cell :: cells =>
    match cellText? cell with
    | some text => (cellTexts record (index + 1) cells).map (text :: ·)
    | none => .error (.notUtf8 record index)

/-- The names of the columns, unless there is one that has no UTF-8 in it. -/
def header? (cells : List Csv.Cell) : Option (List String) :=
  cells.mapM fun cell => (cellText? cell).map String.ofList

/-- The command of a record under the names of a header. A header that cannot be read stands for the
usual one, and each record then has to have all columns. -/
def ofRecord (header : Option (List String)) (record : Nat) (cells : List Csv.Cell) :
    Except TableFault Command := do
  let texts ← cellTexts record 0 cells
  let usual := Column.all.map Column.name
  let reading ← Reading.readAll record 0 (header.getD (usual.take texts.length)) texts {}
  if header.isNone && texts.length < usual.length then throw (.unreadable record none)
  match reading.command? with
  | some command => pure command
  | none => throw (.unreadable record none)

/-- The commands of records, the first of which has a given number. -/
def ofRecords (header : Option (List String)) : (record : Nat) → List (List Csv.Cell) →
    List (Except Rejection Command)
  | _, [] => []
  | record, cells :: rest =>
    (match ofRecord header record cells with
      | .ok command => .ok command
      | .error fault => .error (.unreadableTable fault)) :: ofRecords header (record + 1) rest

/-- The commands of a file, or why each cannot be read. -/
def ofTable (table : List UInt8) : List (Except Rejection Command) :=
  match Csv.records table with
  | [] => []
  | header :: records => ofRecords (header? header) 1 records

end Prepaid.Command
