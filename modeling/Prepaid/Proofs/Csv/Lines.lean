import Prepaid.Csv.Records
import Prepaid.Proofs.Text.Bytes

/-!
# Lines of cells

Cells without quotes, commas and ends of lines in them stand for themselves. A table
that is written in lines of such cells is read as these lines, however the lines end
and wherever there are lines without anything between them.
-/

namespace Prepaid.Csv

/-- The bytes of a cell. -/
def encode (cell : List Char) : Cell :=
  Text.bytes (String.ofList cell)

/-- Texts are encoded one after the other. -/
theorem encode_append (front back : List Char) :
    encode (front ++ back) = encode front ++ encode back := by
  simp only [encode, Text.bytes_ofList, List.flatMap_append]

/-- A text is encoded character by character. -/
theorem encode_cons (c : Char) (rest : List Char) :
    encode (c :: rest) = String.utf8EncodeChar c ++ encode rest := by
  simp only [encode, Text.bytes_ofList, List.flatMap_cons]

/-- Only the empty text has no bytes. -/
theorem encode_eq_nil {cell : List Char} : encode cell = [] ↔ cell = [] := by
  cases cell with
  | nil => exact iff_of_true rfl rfl
  | cons c rest => simp [encode_cons, String.utf8EncodeChar_ne_nil]

/-- A character that stands for itself in a cell. -/
def IsOrdinary (c : Char) : Prop :=
  c ≠ ',' ∧ c ≠ '"' ∧ c ≠ '\n' ∧ c ≠ '\r'

instance : DecidablePred IsOrdinary := fun c =>
  inferInstanceAs (Decidable (c ≠ ',' ∧ c ≠ '"' ∧ c ≠ '\n' ∧ c ≠ '\r'))

/-- A text that stands for itself in a cell. -/
def Clean (cell : List Char) : Prop :=
  ∀ c ∈ cell, IsOrdinary c

instance : DecidablePred Clean := fun cell =>
  List.decidableBAll IsOrdinary cell

/-- A byte that stands for itself in a cell. -/
def OrdinaryByte (byte : UInt8) : Prop :=
  byte ≠ comma ∧ byte ≠ quote ∧ isLineEnd byte = false

/-- The bytes of an ordinary character are ordinary. -/
theorem ordinaryByte_of_mem {c : Char} (ordinary : IsOrdinary c) {byte : UInt8}
    (member : byte ∈ String.utf8EncodeChar c) : OrdinaryByte byte := by
  by_cases narrow : c.toNat < 128
  · have each : ∀ code < 128, IsOrdinary (Char.ofNat code) →
        UInt8.ofNat code ≠ comma ∧ UInt8.ofNat code ≠ quote ∧
        isLineEnd (UInt8.ofNat code) = false := by
      decide +kernel
    rw [Text.utf8EncodeChar_narrow narrow, List.mem_singleton] at member
    rw [member]
    exact each c.toNat narrow (by rwa [Char.ofNat_toNat])
  · have wide := Text.wide_of_mem_utf8EncodeChar (Nat.le_of_not_lt narrow) member
    have each : ∀ other : UInt8, other.toNat < 128 → byte ≠ other := by
      rintro other small rfl
      omega
    refine ⟨each _ (by decide), each _ (by decide), ?_⟩
    rw [isLineEnd, decide_eq_false (each _ (by decide)), decide_eq_false (each _ (by decide)),
      Bool.false_or]

/-- The bytes of a clean text are ordinary. -/
theorem Clean.ordinaryBytes {cell : List Char} (clean : Clean cell) :
    ∀ byte ∈ encode cell, OrdinaryByte byte := by
  intro byte member
  rw [encode, Text.bytes_ofList] at member
  obtain ⟨c, inside, encoded⟩ := List.mem_flatMap.mp member
  exact ordinaryByte_of_mem (clean c inside) encoded

/-! ## One byte -/

/-- The next byte is not in quotes. -/
def Scan.Unquoted (scan : Scan) : Prop :=
  scan.position = .recordStart ∨ scan.position = .cellStart ∨ scan.position = .plain

section Steps

variable {scan : Scan} {byte : UInt8}

/-- An ordinary byte is pushed onto the cell. -/
theorem plainByte_of_ordinary (ordinary : OrdinaryByte byte) (scan : Scan) :
    scan.plainByte byte = scan.push .plain byte := by
  rw [Scan.plainByte, if_neg ordinary.1, ordinary.2.2]
  rfl

/-- Outside of quotes an ordinary byte is pushed onto the cell. -/
theorem Scan.Unquoted.step_ordinary (unquoted : scan.Unquoted) (ordinary : OrdinaryByte byte) :
    scan.step byte = scan.push .plain byte := by
  have plain := plainByte_of_ordinary ordinary scan
  rcases unquoted with position | position | position
  · simp only [Scan.step, position, Scan.firstByte, if_neg ordinary.2.1, ordinary.2.2, plain,
      Bool.false_eq_true, if_false]
  · simp only [Scan.step, position, Scan.firstByte, if_neg ordinary.2.1, plain]
  · simp only [Scan.step, position, plain]

/-- Outside of quotes a comma ends the cell. -/
theorem Scan.Unquoted.step_comma (unquoted : scan.Unquoted) : scan.step comma = scan.endCell := by
  rcases unquoted with position | position | position <;>
    · simp only [Scan.step, position]
      rfl

/-- Outside of quotes a line end ends the record, if one has been started. -/
theorem Scan.Unquoted.step_lineEnd (unquoted : scan.Unquoted)
    (inside : scan.position ≠ .recordStart) (ends : isLineEnd byte = true) :
    scan.step byte = scan.endRecord := by
  have noComma : byte ≠ comma := by
    rintro rfl
    cases ends
  have noQuote : byte ≠ quote := by
    rintro rfl
    cases ends
  have plain : scan.plainByte byte = scan.endRecord := by
    rw [Scan.plainByte, if_neg noComma, if_pos ends]
  rcases unquoted with position | position | position
  · exact (inside position).elim
  · simp only [Scan.step, position, Scan.firstByte, if_neg noQuote, plain]
  · simp only [Scan.step, position, plain]

/-- The end of a line without anything is passed over. -/
theorem step_lineEnd_recordStart (position : scan.position = .recordStart)
    (ends : isLineEnd byte = true) :
    scan.step byte = scan := by
  simp only [Scan.step, position, ends, if_true]

end Steps

/-! ## Cells and lines -/

/-- The cells of a line, with commas between them. -/
def lineText (cells : List (List Char)) : List Char :=
  [','].intercalate cells

/-- The bytes of a line are those of its first cell, a comma and those of the others. -/
theorem lineText_cons_cons (first next : List Char) (rest : List (List Char)) :
    encode (lineText (first :: next :: rest)) =
      encode first ++ comma :: encode (lineText (next :: rest)) := by
  have split : lineText (first :: next :: rest) = first ++ ',' :: lineText (next :: rest) := by
    rw [lineText, List.intercalate_cons_cons, List.append_assoc]
    rfl
  have encoded : String.utf8EncodeChar ',' = [comma] := by decide
  rw [split, encode_append, encode_cons, encoded, List.singleton_append]

/-- Bytes that stand for themselves are put into the cell. -/
theorem foldl_ordinary {scan : Scan} (unquoted : scan.Unquoted) {bytes : List UInt8}
    (ordinary : ∀ byte ∈ bytes, OrdinaryByte byte) :
    bytes.foldl Scan.step scan =
      { scan with
        position := if bytes = [] then scan.position else .plain
        cell := bytes.reverse ++ scan.cell } := by
  induction bytes generalizing scan with
  | nil => rfl
  | cons first rest ih =>
    have pushed : (scan.push .plain first).Unquoted := .inr (.inr rfl)
    rw [List.foldl_cons, unquoted.step_ordinary (ordinary first List.mem_cons_self),
      ih pushed fun byte member => ordinary byte (List.mem_cons_of_mem _ member),
      if_neg (List.cons_ne_nil _ _), List.reverse_cons, List.append_assoc]
    simp only [Scan.push, ite_self, List.singleton_append]

/-- A cell is read. Where there is nothing in it the scan stays where it is. -/
theorem foldl_cell {scan : Scan} (unquoted : scan.Unquoted) (begun : scan.cell = [])
    {cell : List Char} (clean : Clean cell) :
    ((encode cell).foldl Scan.step scan).Unquoted ∧
      (((encode cell).foldl Scan.step scan).position = .recordStart → scan.position = .recordStart ∧
        cell = []) ∧
      ((encode cell).foldl Scan.step scan).endCell =
        { scan with position := .cellStart, cells := encode cell :: scan.cells } ∧
      ((encode cell).foldl Scan.step scan).endRecord =
        { records := (scan.cells.reverse ++ [encode cell]) :: scan.records } := by
  rw [foldl_ordinary unquoted clean.ordinaryBytes]
  simp only [Scan.Unquoted, encode_eq_nil, Scan.endCell, Scan.endRecord, begun, List.append_nil,
    List.reverse_reverse, List.reverse_cons, and_true]
  split
  · next empty => exact ⟨unquoted, fun start => ⟨start, empty⟩⟩
  · exact ⟨.inr (.inr rfl), fun front => nomatch front⟩

/-- A line of cells is read up to its end. Only in front of a line without anything does the scan
stay in front of a record. -/
theorem foldl_line {scan : Scan} (unquoted : scan.Unquoted) (begun : scan.cell = [])
    {cells : List (List Char)} (nonempty : cells ≠ []) (clean : ∀ cell ∈ cells, Clean cell) :
    ((encode (lineText cells)).foldl Scan.step scan).Unquoted ∧
      (((encode (lineText cells)).foldl Scan.step scan).position = .recordStart →
        scan.position = .recordStart ∧ cells = [[]]) ∧
      ((encode (lineText cells)).foldl Scan.step scan).endRecord =
        { records := (scan.cells.reverse ++ cells.map encode) :: scan.records } := by
  induction cells generalizing scan with
  | nil => exact (nonempty rfl).elim
  | cons first rest ih =>
    obtain ⟨cleanFirst, cleanRest⟩ := List.forall_mem_cons.mp clean
    obtain ⟨after, front, ended, record⟩ := foldl_cell unquoted begun cleanFirst
    cases rest with
    | nil =>
      rw [lineText, List.intercalate_singleton]
      exact ⟨after, fun start => ⟨(front start).1, by rw [(front start).2]⟩, record⟩
    | cons next rest =>
      have behind :
          ({ scan with position := .cellStart, cells := encode first :: scan.cells } :
            Scan).Unquoted :=
        .inr (.inl rfl)
      obtain ⟨unquotedLine, frontLine, recordLine⟩ :=
        ih behind begun (List.cons_ne_nil _ _) cleanRest
      rw [lineText_cons_cons, List.foldl_append, List.foldl_cons, after.step_comma, ended]
      refine ⟨unquotedLine, fun start => (nomatch (frontLine start).1), ?_⟩
      rw [recordLine]
      simp

/-! ## Tables -/

/-- How a line ends. -/
inductive LineEnd where
  | lineFeed
  | carriageReturn
  | both

/-- The characters that end a line. -/
def LineEnd.chars : LineEnd → List Char
  | lineFeed => ['\n']
  | carriageReturn => ['\r']
  | both => ['\r', '\n']

/-- The texts that lines of cells are written as. Every line has an end of its own, which the last
one may lack, and there may be lines with nothing in them. -/
inductive Written : List (List (List Char)) → List Char → Prop where
  | nothing : Written [] []
  | blank {lines : List (List (List Char))} {text : List Char} (lineEnd : LineEnd)
    (rest : Written lines text) : Written lines (lineEnd.chars ++ text)
  | line {lines : List (List (List Char))} {text : List Char} (cells : List (List Char))
    (lineEnd : LineEnd) (rest : Written lines text) : Written (cells :: lines)
      (lineText cells ++ (lineEnd.chars ++ text))
  | last (cells : List (List Char)) : Written [cells] (lineText cells)

/-- A line that is a record: there is something in it, and its cells stand for themselves. -/
structure IsRecord (cells : List (List Char)) : Prop where
  clean : ∀ cell ∈ cells, Clean cell
  filled : ∃ cell ∈ cells, cell ≠ []

section Tables

variable {scan : Scan} {cells : List (List Char)} {lines : List (List (List Char))}
    {text : List Char}

/-- In front of a record the end of a line is passed over. -/
theorem foldl_lineEnd_recordStart (start : scan.position = .recordStart) (lineEnd : LineEnd) :
    (encode lineEnd.chars).foldl Scan.step scan = scan := by
  have skip {byte : UInt8} (ends : isLineEnd byte = true) : scan.step byte = scan :=
    step_lineEnd_recordStart start ends
  cases lineEnd with
  | lineFeed | carriageReturn => exact skip rfl
  | both =>
    change (scan.step 0x0d).step 0x0a = scan
    rw [skip rfl, skip rfl]

/-- Behind a line the end of a line ends the record. -/
theorem Scan.Unquoted.foldl_lineEnd (unquoted : scan.Unquoted)
    (inside : scan.position ≠ .recordStart) (lineEnd : LineEnd) :
    (encode lineEnd.chars).foldl Scan.step scan = scan.endRecord := by
  cases lineEnd with
  | lineFeed | carriageReturn => exact unquoted.step_lineEnd inside rfl
  | both =>
    change (scan.step 0x0d).step 0x0a = scan.endRecord
    rw [unquoted.step_lineEnd inside rfl, step_lineEnd_recordStart rfl rfl]

/-- A line that is a record is read up to its end. -/
theorem foldl_record (record : IsRecord cells) (done : List (List Cell)) :
    let after := (encode (lineText cells)).foldl Scan.step { records := done }
    after.Unquoted ∧ after.position ≠ .recordStart ∧
    after.endRecord = { records := cells.map encode :: done } := by
  obtain ⟨cell, member, filled⟩ := record.filled
  have start : ({ records := done } : Scan).Unquoted := .inl rfl
  obtain ⟨after, front, ended⟩ := foldl_line start rfl (List.ne_nil_of_mem member) record.clean
  refine ⟨after, fun stays => ?_, ended⟩
  obtain ⟨-, rfl⟩ := front stays
  exact filled (List.mem_singleton.mp member)

/-- The lines of a table are read as its records. -/
theorem Written.finish_foldl (written : Written lines text)
    (records : ∀ cells ∈ lines, IsRecord cells) (done : List (List Cell)) :
    ((encode text).foldl Scan.step { records := done }).finish =
      done.reverse ++ lines.map (List.map encode) := by
  induction written generalizing done with
  | nothing => rw [List.map_nil, List.append_nil]; rfl
  | blank lineEnd rest ih =>
    rw [encode_append, List.foldl_append, foldl_lineEnd_recordStart rfl]
    exact ih records done
  | line cells lineEnd rest ih =>
    obtain ⟨first, others⟩ := List.forall_mem_cons.mp records
    obtain ⟨unquoted, inside, ended⟩ := foldl_record first done
    rw [encode_append, encode_append, List.foldl_append, List.foldl_append,
      unquoted.foldl_lineEnd inside, ended, ih others, List.reverse_cons, List.append_assoc,
      List.singleton_append, List.map_cons]
  | last cells =>
    obtain ⟨_, inside, ended⟩ := foldl_record (records cells List.mem_cons_self) done
    rw [Scan.finish, ended]
    split
    · next start => exact (inside start).elim
    · rw [List.reverse_cons]
      rfl

/-- No mark is taken off a text that does not begin with one. -/
theorem dropMark_encode (unmarked : ∀ c ∈ text.head?, c.toNat < 0xf000) :
    dropMark (encode text) = encode text := by
  unfold dropMark
  split
  · next rest marked =>
    cases text with
    | nil => cases marked
    | cons c chars =>
      rw [encode_cons] at marked
      cases encoded : String.utf8EncodeChar c with
      | nil => exact (String.utf8EncodeChar_ne_nil encoded).elim
      | cons first others =>
        rw [encoded, List.cons_append] at marked
        obtain rfl := (List.cons.inj marked).1
        exact (Text.head_utf8EncodeChar_ne (unmarked c rfl) others encoded).elim
  · rfl

/-- A line has no characters but its cells' and commas. -/
theorem mem_lineText {c : Char} (member : c ∈ lineText cells) :
    c = ',' ∨ ∃ cell ∈ cells, c ∈ cell := by
  induction cells with
  | nil => cases member
  | cons first rest ih =>
    cases rest with
    | nil =>
      rw [lineText, List.intercalate_singleton] at member
      exact .inr ⟨first, List.mem_cons_self, member⟩
    | cons next rest =>
      rw [lineText, List.intercalate_cons_cons, List.append_assoc, List.mem_append, List.mem_append]
        at member
      rcases member with inFirst | comma | behind
      · exact .inr ⟨first, List.mem_cons_self, inFirst⟩
      · exact .inl (List.mem_singleton.mp comma)
      · obtain comma | ⟨cell, others, inside⟩ := ih behind
        · exact .inl comma
        · exact .inr ⟨cell, List.mem_cons_of_mem _ others, inside⟩

/-- What starts with a line end starts with no byte order mark. -/
theorem LineEnd.head_chars (lineEnd : LineEnd) (rest : List Char) :
    ∀ c ∈ (lineEnd.chars ++ rest).head?, c.toNat < 0xf000 := by
  cases lineEnd <;> simp [chars]

/-- A table is read as its lines, as long as its first line does not begin with a mark. -/
theorem Written.records_eq {header : List (List Char)} (written : Written (header :: lines) text)
    (records : ∀ cells ∈ header :: lines, IsRecord cells)
    (unmarked : ∀ cell ∈ header, ∀ c ∈ cell, c.toNat < 0xf000) :
    Csv.records (encode text) = (header :: lines).map (List.map encode) := by
  have inHeader : ∀ c ∈ (lineText header).head?, c.toNat < 0xf000 := by
    intro c first
    obtain rfl | ⟨cell, member, inside⟩ := mem_lineText (List.mem_of_mem_head? first)
    · decide
    · exact unmarked cell member c inside
  have inText : ∀ c ∈ text.head?, c.toNat < 0xf000 := by
    cases written with
    | blank lineEnd rest => exact lineEnd.head_chars _
    | line _ lineEnd rest =>
      intro c first
      rw [List.head?_append, Option.mem_def, Option.or_eq_some_iff] at first
      obtain inside | ⟨-, behind⟩ := first
      · exact inHeader c inside
      · exact lineEnd.head_chars _ c behind
    | last => exact inHeader
  have read := written.finish_foldl records []
  rwa [List.reverse_nil, List.nil_append, ← dropMark_encode inText] at read

/-- The text of a table whose lines all end with a line feed. -/
def tableText : List (List (List Char)) → List Char
  | [] => []
  | cells :: rest => lineText cells ++ (LineEnd.lineFeed.chars ++ tableText rest)

/-- A table that ends its lines with line feeds is one way to write them. -/
theorem written_tableText (lines : List (List (List Char))) : Written lines (tableText lines) := by
  induction lines with
  | nil => exact .nothing
  | cons cells rest ih => exact .line cells .lineFeed ih

end Tables

/-! ## Printed lines -/

/-- A line is its cells with commas between them, and its end. -/
theorem toList_line (cells : List String) :
    (line cells).toList = lineText (cells.map String.toList) ++ LineEnd.lineFeed.chars := by
  rw [line, String.toList_append, String.toList_intercalate]
  rfl

/-- Lines that are printed one after the other are the text of a table. -/
theorem toList_lines (rows : List (List String)) :
    (String.join (rows.map line)).toList = tableText (rows.map (List.map String.toList)) := by
  induction rows with
  | nil => rfl
  | cons cells rest ih =>
    rw [List.map_cons, String.join_cons, String.toList_append, toList_line, ih, List.append_assoc]
    rfl

/-- The bytes of a text are those of its characters. -/
theorem encode_toList (text : String) : encode text.toList = Text.bytes text := by
  rw [encode, String.ofList_toList]

/-- Digits stand for themselves in a cell. -/
theorem ordinary_of_isDigit {c : Char} (digit : c.isDigit = true) : IsOrdinary c := by
  refine ⟨?_, ?_, ?_, ?_⟩ <;>
    · rintro rfl
      cases digit

/-- Rows of cells that stand for themselves are read back from their lines. -/
theorem records_lines {header : List String} {rows : List (List String)}
    (records : ∀ cells ∈ header :: rows, IsRecord (cells.map String.toList))
    (unmarked : ∀ cell ∈ header, ∀ c ∈ cell.toList, c.toNat < 0xf000) :
    Csv.records (Text.bytes (String.join ((header :: rows).map line))) =
      (header :: rows).map (List.map Text.bytes) := by
  have cells (cells : List String) :
      (cells.map String.toList).map encode = cells.map Text.bytes := by
    simp only [List.map_map, Function.comp_def, encode_toList]
  have read := Written.records_eq
    (written_tableText (header.map String.toList :: rows.map (List.map String.toList)))
      (List.forall_mem_map.mpr records) (List.forall_mem_map.mpr unmarked)
  rw [← encode_toList, toList_lines, List.map_cons, read, List.map_cons, List.map_cons, cells,
    List.map_map]
  simp only [Function.comp_def, cells]

end Prepaid.Csv
