import Mathlib.Data.List.Forall2
import Prepaid.Proofs.Command.Columns
import Prepaid.Proofs.Csv.Lines
import Prepaid.Proofs.Text.Blank

/-!
# Layouts of command files

A sheet is a table of commands apart from any file. A layout of it is a file that holds
it: the columns stand in any order, with other columns among them; blanks surround the
cells; cells at the end of a row are left out if they are empty; and lines end in any way
and have empty lines between them. All layouts are read alike, but for one thing: a row
must not end in front of a column that is none of a command.
-/

namespace Prepaid.Command

/-! ## Sheets -/

/-- A row of a sheet with given columns. Its cells stand for themselves, and there is something in
one of them. -/
structure SheetRow (columns : List Column) where
  cell : Column → List Char
  clean : ∀ column ∈ columns, Csv.Clean (cell column)
  filled : ∃ column ∈ columns, cell column ≠ []

/-- A table of commands, which has some of the columns. -/
structure Sheet where
  columns : List Column
  distinct : columns.Nodup
  kinds : Column.op ∈ columns
  rows : List (SheetRow columns)

namespace SheetRow

variable {columns : List Column}

/-- The text of a column without the blanks around it. A column that the sheet does not have is
empty. -/
def text (row : SheetRow columns) (column : Column) : List Char :=
  if column ∈ columns then Text.trim (row.cell column) else []

/-- The command of a row, unless one of its cells cannot be read. -/
def command? (row : SheetRow columns) : Option Command :=
  ofTexts? row.text

end SheetRow

/-! ## Layouts -/

/-- A text of characters of seven bits. -/
def IsAscii (text : List Char) : Prop :=
  ∀ c ∈ text, c.toNat < 128

instance : DecidablePred IsAscii := fun text =>
  List.decidableBAll (fun c : Char => c.toNat < 128) text

/-- The title of a column that is none of a command. -/
structure OtherTitle where
  chars : List Char
  clean : Csv.Clean chars
  ascii : IsAscii chars
  unknown : Column.ofName? (String.ofList (Text.trim chars)) = none

/-- What stands at the top of a column. -/
inductive Heading where
  | known (column : Column)
  | other (title : OtherTitle)

/-- A blank that may stand beside a cell: any but the ends of lines. -/
def IsPadding (c : Char) : Prop :=
  Text.isBlank c = true ∧ c ≠ '\n' ∧ c ≠ '\r'

namespace Heading

/-- The characters of the heading. -/
def chars : Heading → List Char
  | .known column => column.name.toList
  | .other title => title.chars

/-- The column of a command that the heading stands for. -/
def column? : Heading → Option Column
  | .known column => some column
  | .other _ => none

/-- The cell may stand under the heading: it is the cell of the row in that column with blanks
around it, or any cell at all if the column is none of a command. -/
def Holds {columns : List Column} (row : SheetRow columns) (cell : List Char) : Heading → Prop
  | .known column => Text.StandsIn IsPadding (row.cell column) cell
  | .other _ => Csv.Clean cell

end Heading

/-- The cells are written for a row: each may stand under its heading, those that are left out at
the end are empty, and there is something in one of them. -/
structure WritesRow {columns : List Column} (headings : List Heading) (row : SheetRow columns)
    (cells : List (List Char)) : Prop where
  holds : ∃ omitted, List.Forall₂ (fun heading cell => heading.Holds row cell) headings
    (cells ++ List.replicate omitted [])
  filled : ∃ cell ∈ cells, cell ≠ []

/-- A file that holds a sheet. -/
structure Sheet.Layout (sheet : Sheet) where
  headings : List Heading
  columns : (headings.filterMap Heading.column?).Perm sheet.columns
  names : List (List Char)
  titled : List.Forall₂ (fun heading name => Text.StandsIn IsPadding heading.chars name) headings
    names
  lines : List (List (List Char))
  writes : List.Forall₂ (WritesRow headings) sheet.rows lines
  text : List Char
  written : Csv.Written (names :: lines) text

/-- What the rows of the file are read as, and nothing for those that are faulty. -/
def Sheet.Layout.results {sheet : Sheet} (layout : sheet.Layout) : List (Option Command) :=
  (ofTable (Csv.encode layout.text)).map Except.toOption

/-- The row ends in front of a column that is none of a command. -/
def EndsBeforeOther (headings : List Heading) (cells : List (List Char)) : Prop :=
  ∃ heading ∈ headings.drop cells.length, heading.column? = none

/-! ## Cells -/

/-- Every element on the right has one on the left that it is related to. -/
theorem exists_of_mem_right {α β : Type} {related : α → β → Prop} {left : List α} {right : List β}
    (all : List.Forall₂ related left right) {value : β} (member : value ∈ right) :
    ∃ partner ∈ left, related partner value := by
  induction all with
  | nil => cases member
  | cons first rest ih =>
    rcases List.mem_cons.mp member with rfl | behind
    · exact ⟨_, List.mem_cons_self, first⟩
    · obtain ⟨partner, inside, pair⟩ := ih behind
      exact ⟨partner, List.mem_cons_of_mem _ inside, pair⟩

/-- A cell is read as the characters it was written with, without the blanks around them. -/
theorem cellText?_encode (cell : List Char) :
    cellText? (Csv.encode cell) = some (Text.trim cell) := by
  rw [cellText?, Csv.encode, Text.ofBytes?_bytes, Option.map_some, String.toList_ofList]

/-- Padding needs no quotes. -/
theorem IsPadding.ordinary {c : Char} (padding : IsPadding c) : Csv.IsOrdinary c := by
  obtain ⟨blank, lineFeed, carriageReturn⟩ := padding
  refine ⟨?_, ?_, lineFeed, carriageReturn⟩
  · rintro rfl
    cases blank
  · rintro rfl
    cases blank

/-- Padding is no byte order mark. -/
theorem IsPadding.low {c : Char} (padding : IsPadding c) : c.toNat < 0xf000 := by
  have each : ∀ code ∈ Text.blankCodes, code < 0xf000 := by decide
  exact each _ (List.contains_iff_mem.mp padding.1)

/-- Padding around a text does not survive the trimming. -/
theorem trim_eq {text written : List Char} (stands : Text.StandsIn IsPadding text written) :
    Text.trim written = Text.trim text := by
  obtain ⟨before, after, front, behind, whole⟩ := stands
  exact Text.trim_eq_of_standsIn
    ⟨before, after, fun c member => (front c member).1, fun c member => (behind c member).1, whole⟩

/-- What holds of padding and of a text holds of the padded text. -/
theorem forall_standsIn {text written : List Char} (stands : Text.StandsIn IsPadding text written)
    {property : Char → Prop} (padded : ∀ c, IsPadding c → property c)
    (inside : ∀ c ∈ text, property c) :
    ∀ c ∈ written, property c := by
  obtain ⟨before, after, front, behind, rfl⟩ := stands
  intro c member
  rw [List.mem_append, List.mem_append] at member
  rcases member with (member | member) | member
  · exact padded c (front c member)
  · exact inside c member
  · exact padded c (behind c member)

/-- The name that a heading is read as. -/
def Heading.name (heading : Heading) : String :=
  String.ofList (Text.trim heading.chars)

/-- A heading is read as its own column, and as none if it has another title. -/
theorem Heading.ofName?_name (heading : Heading) :
    Column.ofName? heading.name = heading.column? := by
  cases heading with
  | known column => cases column <;> decide
  | other title => exact title.unknown

/-- A heading stands for itself in a cell. -/
theorem Heading.clean (heading : Heading) : Csv.Clean heading.chars := by
  cases heading with
  | known column => cases column <;> decide
  | other title => exact title.clean

/-- A heading has characters of seven bits. -/
theorem Heading.ascii (heading : Heading) : IsAscii heading.chars := by
  cases heading with
  | known column => cases column <;> decide
  | other title => exact title.ascii

/-! ## Rows -/

section Rows

variable {columns : List Column} {row : SheetRow columns} {headings : List Heading}
    {cells : List (List Char)}

/-- What may stand under a heading stands for itself. -/
theorem Heading.Holds.clean (known : headings.filterMap Heading.column? ⊆ columns)
    {heading : Heading} (member : heading ∈ headings) {cell : List Char}
    (holds : heading.Holds row cell) : Csv.Clean cell := by
  cases heading with
  | known column =>
    have column : column ∈ columns := known (List.mem_filterMap.mpr ⟨_, member, rfl⟩)
    exact forall_standsIn holds (fun _ => IsPadding.ordinary) (row.clean _ column)
  | other title => exact holds

/-- The cells that are written for a row are a record. -/
theorem WritesRow.isRecord (known : headings.filterMap Heading.column? ⊆ columns)
    (writes : WritesRow headings row cells) :
    Csv.IsRecord cells where
  filled := writes.filled
  clean := by
    intro cell member
    obtain ⟨omitted, all⟩ := writes.holds
    obtain ⟨heading, above, holds⟩ := exists_of_mem_right all (List.mem_append_left _ member)
    exact holds.clean known above

/-- What stands under a heading, where a cell that is left out counts as empty. -/
theorem WritesRow.holds_at (writes : WritesRow headings row cells) {place : Nat} {heading : Heading}
    (above : headings[place]? = some heading) : heading.Holds row (cells[place]?.getD []) := by
  obtain ⟨omitted, all⟩ := writes.holds
  obtain ⟨within, rfl⟩ := List.getElem?_eq_some_iff.mp above
  have below : place < (cells ++ List.replicate omitted []).length := all.length_eq ▸ within
  have same : cells[place]?.getD [] = (cells ++ List.replicate omitted [])[place] := by
    rw [List.getElem_append]
    split
    · next inside => rw [List.getElem?_eq_getElem inside, Option.getD_some]
    · next outside =>
        rw [List.getElem?_eq_none (Nat.le_of_not_lt outside), List.getElem_replicate,
          Option.getD_none]
  rw [same]
  exact all.get within below

/-- The text of a column is in the cell under its heading. -/
theorem WritesRow.text (known : headings.filterMap Heading.column? ⊆ columns)
    (writes : WritesRow headings row cells) {place : Nat} {column : Column}
    (found : (headings.map Heading.name)[place]?.bind Column.ofName? = some column) :
    (cells.map Text.trim)[place]?.getD [] = row.text column := by
  rw [List.getElem?_map, Option.bind_map] at found
  obtain ⟨heading, above, named⟩ := Option.bind_eq_some_iff.mp found
  rw [Function.comp_apply, Heading.ofName?_name] at named
  have holds := writes.holds_at above
  have inColumns : column ∈ columns :=
    known (List.mem_filterMap.mpr ⟨heading, List.mem_of_getElem? above, named⟩)
  have trimmed : (cells.map Text.trim)[place]?.getD [] = Text.trim (cells[place]?.getD []) := by
    rw [List.getElem?_map]
    cases cells[place]? <;> rfl
  cases heading with
  | known other =>
    cases named
    rw [trimmed, trim_eq holds, SheetRow.text, if_pos inColumns]
  | other title => cases named

instance (headings : List Heading) (cells : List (List Char)) :
    Decidable (EndsBeforeOther headings cells) :=
  inferInstanceAs (Decidable (∃ heading ∈ _, _))

/-- A row reaches all unknown columns exactly if it does not end in front of one. -/
theorem reaches_iff : Reading.Reaches (headings.map Heading.name) cells ↔
    ¬ EndsBeforeOther headings cells := by
  simp only [Reading.Reaches, EndsBeforeOther, ← List.map_drop, List.forall_mem_map,
    Heading.ofName?_name, not_exists, not_and, Option.isSome_iff_ne_none, ne_eq]

/-- The columns a header names are those of its headings. -/
theorem filterMap_ofName?_name (headings : List Heading) :
    (headings.map Heading.name).filterMap Column.ofName? = headings.filterMap Heading.column? := by
  rw [List.filterMap_map]
  congr 1
  funext heading
  exact heading.ofName?_name

/-- The cells of a record are read together. -/
theorem mapM_cellText?_encode (cells : List (List Char)) :
    (cells.map Csv.encode).mapM cellText? = some (cells.map Text.trim) := by
  induction cells with
  | nil => rfl
  | cons cell rest ih => rw [List.map_cons, List.mapM_cons, cellText?_encode, ih]; rfl

/-- A row is read as its command, unless it ends in front of a column that is none of a command. -/
theorem WritesRow.toOption_ofRecord (perm : (headings.filterMap Heading.column?).Perm columns)
    (distinct : columns.Nodup) (kinds : Column.op ∈ columns)
    (writes : WritesRow headings row cells) :
    (ofRecord (some (headings.map Heading.name)) 0 (cells.map Csv.encode)).toOption =
      if EndsBeforeOther headings cells then none else row.command? := by
  have known : (headings.map Heading.name).filterMap Column.ofName? =
      headings.filterMap Heading.column? :=
    filterMap_ofName?_name headings
  have missing (column : Column)
      (absent : column ∉ (headings.map Heading.name).filterMap Column.ofName?) :
      row.text column = [] :=
    if_neg fun member => absent (known ▸ perm.mem_iff.mpr member)
  have reaches : Reading.Reaches (headings.map Heading.name) (cells.map Text.trim) ↔
      ¬ EndsBeforeOther headings cells := by
    rw [reaches_iff, EndsBeforeOther, EndsBeforeOther, List.length_map]
  rw [toOption_ofRecord_texts (mapM_cellText?_encode cells) (known ▸ perm.mem_iff.mpr kinds)
    (known ▸ perm.nodup_iff.mpr distinct) (fun place column => writes.text perm.subset) missing]
  simp only [reaches, ite_not, SheetRow.command?]

end Rows

/-! ## Files -/

namespace Sheet.Layout

variable {sheet : Sheet}

/-- No name in a header has the character of a byte order mark. -/
theorem low (layout : sheet.Layout) : ∀ name ∈ layout.names, ∀ c ∈ name, c.toNat < 0xf000 := by
  intro name member
  obtain ⟨heading, _, stands⟩ := exists_of_mem_right layout.titled member
  exact forall_standsIn stands (fun c => IsPadding.low) fun c inside =>
    Nat.lt_trans (heading.ascii c inside) (by decide)

/-- The header of a layout is a record. -/
theorem isRecord_names (layout : sheet.Layout) : Csv.IsRecord layout.names where
  clean := by
    intro name member
    obtain ⟨heading, _, stands⟩ := exists_of_mem_right layout.titled member
    exact forall_standsIn stands (fun c => IsPadding.ordinary) heading.clean
  filled := by
    have kinds := layout.columns.mem_iff.mpr sheet.kinds
    obtain ⟨heading, above, named⟩ := List.mem_filterMap.mp kinds
    obtain ⟨name, member, before, after, -, -, rfl⟩ := exists_of_mem_right layout.titled.flip above
    refine ⟨_, member, ?_⟩
    cases heading with
    | known column =>
      cases named
      exact List.append_ne_nil_of_left_ne_nil (List.append_ne_nil_of_right_ne_nil _ (by decide)) _
    | other title => cases named

/-- Every line of a layout is a record. -/
theorem isRecord (layout : sheet.Layout) :
    ∀ cells ∈ layout.names :: layout.lines, Csv.IsRecord cells := by
  refine List.forall_mem_cons.mpr ⟨layout.isRecord_names, fun cells member => ?_⟩
  obtain ⟨row, _, writes⟩ := exists_of_mem_right layout.writes member
  exact writes.isRecord layout.columns.subset

/-- A header is read as the names of its headings, blanks or not. -/
theorem header?_eq {headings : List Heading} {names : List (List Char)}
    (titled : List.Forall₂ (fun heading name => Text.StandsIn IsPadding heading.chars name) headings
      names) :
    header? (names.map Csv.encode) = some (headings.map Heading.name) := by
  induction titled with
  | nil => rfl
  | cons first rest ih =>
    rw [header?] at ih ⊢
    rw [List.map_cons, List.mapM_cons, ih, cellText?_encode, trim_eq first]
    rfl

/-- Each row is read as its command, unless it ends in front of a column that is none of a
command. -/
theorem results_eq (layout : sheet.Layout) :
    layout.results = List.zipWith (fun row cells =>
      if EndsBeforeOther layout.headings cells then none
        else row.command?) sheet.rows layout.lines := by
  have read := layout.written.records_eq layout.isRecord layout.low
  rw [results, map_toOption_ofTable read, header?_eq layout.titled, List.map_map]
  have each : ∀ {rows : List (SheetRow sheet.columns)} {lines : List (List (List Char))},
      List.Forall₂ (WritesRow layout.headings) rows lines →
        lines.map
          ((fun cells => (ofRecord (some (layout.headings.map Heading.name)) 0 cells).toOption) ∘
          List.map Csv.encode) =
        List.zipWith (fun row cells => if EndsBeforeOther layout.headings cells then none
          else row.command?)
          rows lines := by
    intro rows lines writes
    induction writes with
    | nil => rfl
    | cons first rest ih =>
      rw [List.map_cons, List.zipWith_cons_cons, ih, Function.comp_apply,
        first.toOption_ofRecord layout.columns sheet.distinct sheet.kinds]
  exact each layout.writes

end Sheet.Layout

/-! ## Reading all layouts alike -/

/-- A text stands in itself, with no padding around it. -/
theorem standsIn_self (text : List Char) : Text.StandsIn IsPadding text text :=
  ⟨[], [], by simp, by simp, by simp⟩

/-- The file that holds nothing but the sheet: its columns in their order, no blanks beside a cell,
all cells of every row, and a line feed behind each line. -/
def Sheet.plain (sheet : Sheet) : sheet.Layout where
  headings := sheet.columns.map .known
  columns := by
    have same : (sheet.columns.map Heading.known).filterMap Heading.column? = sheet.columns := by
      rw [List.filterMap_map]
      exact List.filterMap_some
    rw [same]
  names := sheet.columns.map fun column => column.name.toList
  titled := by
    rw [List.forall₂_map_left_iff, List.forall₂_map_right_iff, List.forall₂_same]
    exact fun column _ => standsIn_self _
  lines := sheet.rows.map fun row => sheet.columns.map row.cell
  writes := by
    rw [List.forall₂_map_right_iff, List.forall₂_same]
    refine fun row _ => ⟨⟨0, ?_⟩, ?_⟩
    · rw [List.replicate_zero, List.append_nil, List.forall₂_map_left_iff,
        List.forall₂_map_right_iff, List.forall₂_same]
      exact fun column _ => standsIn_self _
    · obtain ⟨column, member, filled⟩ := row.filled
      exact ⟨_, List.mem_map_of_mem member, filled⟩
  text := Csv.tableText ((sheet.columns.map fun column => column.name.toList) ::
    sheet.rows.map fun row => sheet.columns.map row.cell)
  written := Csv.written_tableText _

/-- Pairing with a second list makes no difference exactly if it makes none in any pair. -/
theorem zipWith_eq_map_iff {α β γ : Type} {each : α → β → γ} {alone : α → γ} {left : List α}
    {right : List β} (length : left.length = right.length) :
    List.zipWith each left right = left.map alone ↔
      ∀ pair ∈ left.zip right, each pair.1 pair.2 = alone pair.1 := by
  induction left generalizing right with
  | nil => simp
  | cons first rest ih =>
    cases right with
    | nil => cases length
    | cons partner others =>
      rw [List.zipWith_cons_cons, List.map_cons, List.zip_cons_cons, List.forall_mem_cons,
        List.cons_eq_cons, ih (Nat.succ.inj length)]

/-- Without other columns every row is read as its command. -/
theorem Sheet.plain_results (sheet : Sheet) :
    sheet.plain.results = sheet.rows.map SheetRow.command? := by
  have reaches (cells : List (List Char)) : ¬ EndsBeforeOther sheet.plain.headings cells := by
    rintro ⟨heading, behind, other⟩
    obtain ⟨column, _, rfl⟩ := List.mem_map.mp (List.mem_of_mem_drop behind)
    cases other
  rw [Layout.results_eq]
  exact (zipWith_eq_map_iff sheet.plain.writes.length_eq).mpr fun pair _ => if_neg (reaches pair.2)

/-- All layouts of a sheet are read alike, but for rows that end in front of a column that is none
of a command. Every other row is read as its command, column by column, wherever its columns stand,
whatever blanks surround its cells, whether or not empty cells are left out at its end, and however
lines end; a row that ends in front of such a column is faulty. So a layout is read as the plain one
exactly if no row that could be read ends there. In any file what a row is read as depends on
nothing but the header and the row. -/
theorem layouts_read_alike_iff (sheet : Sheet) (layout : sheet.Layout) :
    layout.results = List.zipWith (fun row cells =>
      if EndsBeforeOther layout.headings cells then none
        else row.command?) sheet.rows layout.lines ∧
    (layout.results = sheet.plain.results ↔ ∀ pair ∈ sheet.rows.zip layout.lines,
      EndsBeforeOther layout.headings pair.2 → pair.1.command? = none) ∧
    ∀ table header rows, Csv.records table = header :: rows →
      (ofTable table).map Except.toOption =
        rows.map fun cells => (ofRecord (header? header) 0 cells).toOption := by
  refine ⟨layout.results_eq, ?_, fun table header rows => map_toOption_ofTable⟩
  rw [layout.results_eq, sheet.plain_results, zipWith_eq_map_iff layout.writes.length_eq]
  refine forall₂_congr fun pair _ => ?_
  split
  · next ends => exact ⟨fun same _ => same.symm, fun faulty => (faulty ends).symm⟩
  · next reaches => exact iff_of_true rfl fun ends => (reaches ends).elim

/-- A column for notes. -/
def noteTitle : OtherTitle where
  chars := "note".toList
  clean := by decide
  ascii := by decide
  unknown := by decide

/-- A sheet with a deposit, and with an order that has no amount. -/
def depositSheet : Sheet where
  columns := [.op, .user, .amount]
  distinct := by decide
  kinds := by decide
  rows := [
    { cell := fun
        | .op => "deposit".toList
        | .user => "1".toList
        | .amount => "25.00".toList
        | _ => []
      clean := by decide
      filled := ⟨.op, by decide, by decide⟩ },
    { cell := fun
        | .op => "place".toList
        | .user => "2".toList
        | _ => []
      clean := by decide
      filled := ⟨.op, by decide, by decide⟩ }]

/-- A space is padding. -/
theorem isPadding_space : IsPadding ' ' := ⟨by decide, by decide, by decide⟩

/-- A layout with its columns in another order, notes, blanks, an empty cell left out and empty
lines. -/
def scattered : depositSheet.Layout where
  headings := [.known .user, .other noteTitle, .known .op, .known .amount]
  columns := by decide
  names := [" user".toList, "note".toList, "op ".toList, "amount".toList]
  titled :=
    .cons ⟨[' '], [], by simp [isPadding_space], by simp, rfl⟩ <|
      .cons (standsIn_self _) <| .cons ⟨[], [' '], by simp, by simp [isPadding_space], rfl⟩ <|
        .cons (standsIn_self _) .nil
  lines := [["1".toList, "first".toList, " deposit".toList, "25.00".toList],
    ["2".toList, [], "place".toList]]
  writes :=
    .cons
      ⟨⟨0, .cons (standsIn_self _) <| .cons (by decide : Csv.Clean _) <|
          .cons ⟨[' '], [], by simp [isPadding_space], by simp, rfl⟩ <|
            .cons (standsIn_self _) .nil⟩,
        ⟨_, List.mem_cons_self, by decide⟩⟩ <|
      .cons
        ⟨⟨1, .cons (standsIn_self _) <| .cons (by decide : Csv.Clean _) <|
            .cons (standsIn_self _) <| .cons (standsIn_self _) .nil⟩,
          ⟨_, List.mem_cons_self, by decide⟩⟩ .nil
  text := _
  written := .blank .lineFeed (.line _ .both (.line _ .carriageReturn (.blank .both (.last _))))

/-- The scattered layout is read as the plain one, so it gives the commands of the sheet. -/
theorem scattered_read_alike : scattered.results = depositSheet.plain.results ∧
    depositSheet.plain.results =
      [some { kind := .deposit, user := some ⟨1⟩, amount := Decimal.ofText? "25" },
      some { kind := .place, user := some ⟨2⟩ }] :=
  ⟨(layouts_read_alike_iff depositSheet scattered).2.1.mpr (by decide), by decide +kernel⟩

/-- A layout with a column for notes at the end, whose empty cell is left out in the first row. -/
def shortened : depositSheet.Layout where
  headings := [.known .op, .known .user, .known .amount, .other noteTitle]
  columns := by decide
  names := ["op".toList, "user".toList, "amount".toList, "note".toList]
  titled :=
    .cons (standsIn_self _) <| .cons (standsIn_self _) <| .cons (standsIn_self _) <|
      .cons (standsIn_self _) .nil
  lines := [["deposit".toList, "1".toList, "25.00".toList], ["place".toList, "2".toList, [], []]]
  writes :=
    .cons
      ⟨⟨1, .cons (standsIn_self _) <| .cons (standsIn_self _) <| .cons (standsIn_self _) <|
          .cons (by decide : Csv.Clean _) .nil⟩,
        ⟨_, List.mem_cons_self, by decide⟩⟩ <|
      .cons
        ⟨⟨0, .cons (standsIn_self _) <| .cons (standsIn_self _) <| .cons (standsIn_self _) <|
            .cons (by decide : Csv.Clean _) .nil⟩,
          ⟨_, List.mem_cons_self, by decide⟩⟩ .nil
  text := _
  written := Csv.written_tableText _

/-- The empty cell must not be left out, although it stands in a column that is passed over. -/
theorem shortened_not_read_alike :
    String.ofList shortened.text = "op,user,amount,note\ndeposit,1,25.00\nplace,2,,\n" ∧
      shortened.results = [none, some { kind := .place, user := some ⟨2⟩ }] ∧
      shortened.results ≠ depositSheet.plain.results := by
  decide +kernel

end Prepaid.Command
