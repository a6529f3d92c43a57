import Prepaid.Command.Table

/-!
# Commands column by column

What a row is read as does not depend on the order of its columns, nor on where it
stands in a file: each column has a text, and is read by itself. A column that is
missing counts as empty.
-/

namespace Prepaid

/-- Forgetting the error of a sequence forgets those of its parts. -/
theorem toOption_bind {ε α β : Type} (made : Except ε α) (next : α → Except ε β) :
    (made >>= next).toOption = made.toOption.bind fun value => (next value).toOption := by
  cases made <;> rfl

namespace Command

/-- The value of a text, which is none if the text is empty, unless it cannot be read. -/
def value? {α : Type} (read? : List Char → Option α) (text : List Char) : Option (Option α) :=
  if text = [] then some none else (read? text).map some

/-- The command whose columns have given texts, unless one of them cannot be read. -/
def ofTexts? (texts : Column → List Char) : Option Command := do
  let kind ← CommandKind.ofName? (String.ofList (texts .op))
  let user ← value? readNatural? (texts .user)
  let order ← value? readNatural? (texts .order)
  let amount ← value? readAmount? (texts .amount)
  let instant ← value? Instant.ofChars? (texts .instant)
  let session ← value? (fun text => some (String.ofList text)) (texts .session)
  let event ← value? (fun text => some (String.ofList text)) (texts .event)
  pure
    { kind, user := user.map UserId.mk, order := order.map OrderId.mk, amount, instant, session,
      event }

/-- A cell that is missing is read as an empty one. -/
theorem toOption_readCell {α : Type} (fault : TableFault) (read? : List Char → Option α)
    (cell : Option (List Char)) :
    (readCell fault read? cell).toOption = value? read? (cell.getD []) := by
  match cell with
  | none => rfl
  | some [] => rfl
  | some (c :: rest) =>
    rw [readCell, Option.getD_some, value?, if_neg (List.cons_ne_nil c rest)]
    · cases read? (c :: rest) <;> rfl
    · exact fun same => nomatch same

namespace Reading

/-- The reading with the text of one more column. -/
def put? (reading : Reading) (text : List Char) : Column → Option Reading
  | .op => (CommandKind.ofName? (String.ofList text)).map fun kind =>
    { reading with kind := some kind }
  | .user => (value? readNatural? text).map fun user => { reading with user := user.map UserId.mk }
  | .order => (value? readNatural? text).map fun order =>
    { reading with order := order.map OrderId.mk }
  | .amount => (value? readAmount? text).map fun amount => { reading with amount }
  | .instant => (value? Instant.ofChars? text).map fun instant => { reading with instant }
  | .session =>
    (value? (fun text => some (String.ofList text)) text).map fun session =>
      { reading with session }
  | .event => (value? (fun text => some (String.ofList text)) text).map fun event =>
    { reading with event }

/-- A reading takes in the text of a column or fails, wherever the cell stands. -/
theorem toOption_readColumn (record index : Nat) (cell : Option (List Char)) (reading : Reading)
    (column : Column) :
    (reading.readColumn record index cell column).toOption =
      reading.put? (cell.getD []) column := by
  cases column with
  | op =>
    have same : (cell.bind fun text => CommandKind.ofName? (String.ofList text)) =
        CommandKind.ofName? (String.ofList (cell.getD [])) := by
      cases cell with
      | none => decide
      | some text => rfl
    rw [readColumn, same, put?]
    cases CommandKind.ofName? (String.ofList (cell.getD [])) <;> rfl
  | user | order | amount | instant | session | event =>
    rw [readColumn, toOption_bind, toOption_readCell, put?]
    exact Option.map_eq_bind.symm

/-- What is known of the texts of columns when some of the columns have come up. -/
def known (texts : Column → List Char) (done : List Column) (column : Column) : List Char :=
  if column ∈ done then texts column else []

/-- The reading of columns with given texts, if all of them can be read. -/
def ofTexts (texts : Column → List Char) : Reading where
  kind := CommandKind.ofName? (String.ofList (texts .op))
  user := (value? readNatural? (texts .user)).join.map UserId.mk
  order := (value? readNatural? (texts .order)).join.map OrderId.mk
  amount := (value? readAmount? (texts .amount)).join
  instant := (value? Instant.ofChars? (texts .instant)).join
  session := (value? (fun text => some (String.ofList text)) (texts .session)).join
  event := (value? (fun text => some (String.ofList text)) (texts .event)).join

/-- The reading when some of the columns have come up. -/
def begun (texts : Column → List Char) (done : List Column) : Reading :=
  { ofTexts (known texts done) with seen := done }

/-- Nothing is known before the first column. -/
theorem begun_nil (texts : Column → List Char) : begun texts [] = {} := by
  have noKind : CommandKind.ofName? "" = none := by decide
  simp only [begun, ofTexts, known, List.not_mem_nil, if_false, value?, String.ofList_nil, noKind,
    if_true, Option.join_some, Option.map_none]

/-- Whether the text of a column can be read. -/
def accepts (texts : Column → List Char) (column : Column) : Bool :=
  (put? {} (texts column) column).isSome

/-- One more column comes up. -/
theorem put?_begun (texts : Column → List Char) (done : List Column) (column : Column) :
    put? { begun texts done with seen := column :: done } (texts column) column =
      if accepts texts column then some (begun texts (column :: done)) else none := by
  cases column with
  | op =>
    simp only [put?, accepts, Option.isSome_map]
    cases read : CommandKind.ofName? (String.ofList (texts .op)) with
    | none => rfl
    | some kind => simp [begun, ofTexts, known, read]
  | user | order | amount | instant | session | event =>
    simp only [put?, accepts, Option.isSome_map]
    generalize read : value? _ _ = made
    cases made with
    | none => rfl
    | some value => simp [begun, ofTexts, known, read]

/-- Columns that are missing are empty. -/
theorem begun_of_missing {texts : Column → List Char} {done : List Column}
    (missing : ∀ column, column ∉ done → texts column = []) :
    begun texts done = { ofTexts texts with seen := done } := by
  have same : known texts done = texts := by
    funext column
    rw [known]
    split
    · rfl
    · next absent => rw [missing column absent]
  rw [begun, same]

end Reading

/-- A command is read of texts exactly if all of them can be read. -/
theorem ofTexts?_eq (texts : Column → List Char) :
    ofTexts? texts =
      if ∀ column ∈ Column.all, Reading.accepts texts column = true
        then (Reading.ofTexts texts).command? else none := by
  simp only [ofTexts?, Reading.ofTexts, Reading.accepts, Reading.put?, Option.isSome_map,
    Column.all, List.mem_cons, List.not_mem_nil, or_false, forall_eq_or_imp, forall_eq]
  generalize CommandKind.ofName? _ = kind, value? _ (texts .user) = user, value? _ (texts .order) =
    order, value? _ (texts .amount) = amount, value? _ (texts .instant) = instant,
    value? _ (texts .session) = session, value? _ (texts .event) = event
  obtain _ | kind := kind
  · rfl
  obtain _ | user := user
  · rfl
  obtain _ | order := order
  · rfl
  obtain _ | amount := amount
  · rfl
  obtain _ | instant := instant
  · rfl
  obtain _ | session := session
  · rfl
  obtain _ | event := event
  · rfl
  · rfl

namespace Reading

variable {names : List String} {cells : List (List Char)} {texts : Column → List Char}
    {done : List Column}

/-- A new column adds its text to what is known, if the text can be read. -/
theorem toOption_readNamed_known {name : String} {column : Column}
    (named : Column.ofName? name = some column) (new : column ∉ done) (record index : Nat)
    {cell : Option (List Char)} (text : cell.getD [] = texts column) :
    (readNamed record (begun texts done) index name cell).toOption =
      if accepts texts column then some (begun texts (column :: done)) else none := by
  have absent : column ∉ (begun texts done).seen := new
  unfold readNamed
  simp only [named, if_neg absent]
  rw [toOption_readColumn, text]
  exact put?_begun texts done column

/-- A column with an unknown name is passed over, but its cell must be there. -/
theorem toOption_readNamed_other {name : String} (other : Column.ofName? name = none)
    (record index : Nat) (reading : Reading) (cell : Option (List Char)) :
    (readNamed record reading index name cell).toOption = cell.map fun _ => reading := by
  unfold readNamed
  rw [other]
  cases cell <;> rfl

/-- No column with an unknown name stands behind the end of a row. -/
def Reaches (names : List String) (cells : List (List Char)) : Prop :=
  ∀ name ∈ names.drop cells.length, (Column.ofName? name).isSome = true

instance (names : List String) (cells : List (List Char)) : Decidable (Reaches names cells) :=
  inferInstanceAs (Decidable (∀ name ∈ _, _))

/-- A row reaches past a name if it reaches past those behind it, and has a cell under it or the
name is known. -/
theorem reaches_cons {name : String} :
    Reaches (name :: names) cells ↔
      ((Column.ofName? name).isSome = true ∨ cells ≠ []) ∧ Reaches names cells.tail := by
  cases cells <;> simp [Reaches]

/-- A row is read exactly if the texts of its columns can be read, and if it does not end in front
of a column with an unknown name. The order of the columns makes no difference. -/
theorem toOption_readAll (record index : Nat)
    (fits : ∀ (place : Nat) (column : Column), names[place]?.bind Column.ofName? = some column →
      cells[place]?.getD [] = texts column)
    (distinct : ((names.filterMap Column.ofName?).reverse ++ done).Nodup) :
    (readAll record index names cells (begun texts done)).toOption =
      if (∀ column ∈ names.filterMap Column.ofName?, accepts texts column = true) ∧
      Reaches names cells then
        some (begun texts ((names.filterMap Column.ofName?).reverse ++ done))
      else none := by
  induction names generalizing index cells done with
  | nil => simp [readAll, Except.toOption, Reaches]
  | cons name rest ih =>
    have fitsRest : ∀ (place : Nat) (column : Column),
        rest[place]?.bind Column.ofName? = some column →
          cells.tail[place]?.getD [] = texts column := by
      intro place column found
      rw [List.getElem?_tail]
      exact fits (place + 1) column found
    rw [readAll, toOption_bind]
    cases named : Column.ofName? name with
    | some column =>
      rw [List.filterMap_cons_some named, List.reverse_cons, List.append_assoc,
        List.singleton_append] at distinct ⊢
      have new : column ∉ done := fun member => by
        have apart := (List.nodup_append.mp distinct).2.1
        exact (List.nodup_cons.mp apart).1 member
      have text : cells.head?.getD [] = texts column := by
        rw [List.head?_eq_getElem?]
        exact fits 0 column named
      rw [toOption_readNamed_known named new record index text]
      simp only [reaches_cons, named, List.forall_mem_cons, Option.isSome_some, true_or, true_and]
      by_cases accepted : accepts texts column = true
      · simp only [accepted, if_true, Option.bind_some, true_and]
        exact ih (index + 1) fitsRest distinct
      · simp [accepted]
    | none =>
      rw [List.filterMap_cons_none named] at distinct ⊢
      rw [toOption_readNamed_other named]
      simp only [reaches_cons, named, Option.isSome_none, Bool.false_eq_true, false_or]
      cases cells with
      | nil => simp
      | cons cell others =>
        simp only [List.head?_cons, Option.map_some, Option.bind_some, ne_eq, reduceCtorEq,
          not_false_eq_true, true_and]
        exact ih (index + 1) fitsRest distinct

end Reading

/-! ## Records -/

section Records

variable {names : List String} {cells : List (List Char)} {texts : Column → List Char}

/-- Where a cell stands is only told in errors. -/
theorem Reading.toOption_readNamed (record index other place : Nat) (reading : Reading)
    (name : String) (cell : Option (List Char)) :
    (readNamed record reading index name cell).toOption =
      (readNamed other reading place name cell).toOption := by
  unfold readNamed
  split
  · split
    · rfl
    · rw [toOption_readColumn, toOption_readColumn]
  · cases cell <;> rfl

/-- Where a record stands is only told in errors. -/
theorem Reading.toOption_readAll_anywhere (record index other place : Nat) (reading : Reading) :
    (readAll record index names cells reading).toOption =
      (readAll other place names cells reading).toOption := by
  induction names generalizing index place cells reading with
  | nil => rfl
  | cons name rest ih =>
    simp only [readAll, toOption_bind, toOption_readNamed record index other place,
      ih (index + 1) (place + 1)]

/-- The cells of a record are read if each of them is. -/
theorem toOption_cellTexts (record index : Nat) (cells : List Csv.Cell) :
    (cellTexts record index cells).toOption = cells.mapM cellText? := by
  induction cells generalizing index with
  | nil => rfl
  | cons cell rest ih =>
    rw [List.mapM_cons, ← ih (index + 1), cellTexts]
    cases cellText? cell with
    | none => rfl
    | some text => cases cellTexts record (index + 1) rest <;> rfl

/-- Where a record stands makes no difference to what it is read as. -/
theorem toOption_ofRecord (header : Option (List String)) (record other : Nat)
    (cells : List Csv.Cell) :
    (ofRecord header record cells).toOption = (ofRecord header other cells).toOption := by
  simp only [ofRecord, toOption_bind, toOption_cellTexts,
    Reading.toOption_readAll_anywhere record 0 other 0]
  congr 1
  funext texts
  congr 1
  funext reading
  split
  · rfl
  · cases reading.command? <;> rfl

/-- Each record is read on its own. -/
theorem map_toOption_ofRecords (header : Option (List String)) (record : Nat)
    (rows : List (List Csv.Cell)) :
    (ofRecords header record rows).map Except.toOption =
      rows.map fun cells => (ofRecord header 0 cells).toOption := by
  induction rows generalizing record with
  | nil => rfl
  | cons cells rest ih =>
    rw [ofRecords, List.map_cons, List.map_cons, ih, ← toOption_ofRecord header record 0]
    cases ofRecord header record cells <;> rfl

/-- An empty text can be read in every column but that of the operation. -/
theorem Reading.accepts_empty {column : Column} (other : column ≠ .op) (empty : texts column = []) :
    accepts texts column = true := by
  rw [accepts, empty]
  cases column with
  | op => exact (other rfl).elim
  | _ => rfl

/-- The record of a header with the column of the kind is read by what its columns are read as, as
long as it does not end in front of a column with an unknown name. -/
theorem toOption_ofRecord_texts {row : List Csv.Cell} (read : row.mapM cellText? = some cells)
    (kinds : Column.op ∈ names.filterMap Column.ofName?)
    (distinct : (names.filterMap Column.ofName?).Nodup)
    (fits : ∀ (place : Nat) (column : Column), names[place]?.bind Column.ofName? = some column →
      cells[place]?.getD [] = texts column)
    (missing : ∀ column, column ∉ names.filterMap Column.ofName? → texts column = []) :
    (ofRecord (some names) 0 row).toOption = if Reading.Reaches names cells then ofTexts? texts
      else none := by
  have distinctDone : ((names.filterMap Column.ofName?).reverse ++ []).Nodup := by
    rw [List.append_nil]
    exact (List.reverse_perm _).nodup_iff.mpr distinct
  have all := Reading.toOption_readAll 0 0 fits distinctDone
  rw [Reading.begun_nil, List.append_nil] at all
  have final : (Reading.begun texts (names.filterMap Column.ofName?).reverse).command? =
      (Reading.ofTexts texts).command? := by
    rw [Reading.begun_of_missing fun column absent => missing column fun member =>
      absent (List.mem_reverse.mpr member)]
    rfl
  have accepted : (∀ column ∈ names.filterMap Column.ofName?, Reading.accepts texts column = true) ↔
      ∀ column ∈ Column.all, Reading.accepts texts column = true := by
    constructor
    · intro each column _
      by_cases member : column ∈ names.filterMap Column.ofName?
      · exact each column member
      · refine Reading.accepts_empty ?_ (missing column member)
        rintro rfl
        exact member kinds
    · intro each column _
      exact each column (by cases column <;> decide)
  simp only [ofRecord, toOption_bind, toOption_cellTexts, read, Option.bind_some, Option.getD_some,
    all, accepted, ofTexts?_eq]
  by_cases reaches : Reading.Reaches names cells
  · by_cases accepts : ∀ column ∈ Column.all, Reading.accepts texts column = true
    · rw [if_pos ⟨accepts, reaches⟩, if_pos reaches, if_pos accepts, ← final, Option.bind_some]
      cases (Reading.begun texts (names.filterMap Column.ofName?).reverse).command? <;> rfl
    · rw [if_neg fun both => accepts both.1, if_pos reaches, if_neg accepts, Option.bind_none]
  · rw [if_neg fun both => reaches both.2, if_neg reaches, Option.bind_none]

/-- What a row of a file is read as depends on nothing but the header and that row. -/
theorem map_toOption_ofTable {table : List UInt8} {header : List Csv.Cell}
    {rows : List (List Csv.Cell)} (read : Csv.records table = header :: rows) :
    (ofTable table).map Except.toOption =
      rows.map fun cells => (ofRecord (header? header) 0 cells).toOption := by
  rw [ofTable, read]
  exact map_toOption_ofRecords _ 1 rows

end Records

end Command

end Prepaid
