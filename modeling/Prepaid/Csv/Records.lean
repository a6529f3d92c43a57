/-!
# Tables of cells

A table is read byte by byte. Cells are separated by commas and records end with a
line feed, a carriage return or both; lines without anything are no records. A
cell that begins with a quote ends with one, and a quote inside it is written
twice; anywhere else a quote is a byte like any other.
-/

namespace Prepaid.Csv

/-- A cell as its bytes. -/
abbrev Cell : Type := List UInt8

abbrev comma : UInt8 := 0x2c

abbrev quote : UInt8 := 0x22

/-- Whether a byte ends a line. -/
def isLineEnd (byte : UInt8) : Bool :=
  byte = 0x0a || byte = 0x0d

/-- Where in a table the next byte stands. -/
inductive Position where
  /-- In front of a record. -/
  | recordStart
  /-- In front of a cell, behind a comma. -/
  | cellStart
  /-- In a cell that does not begin with a quote, or behind its closing quote. -/
  | plain
  /-- In a cell that begins with a quote. -/
  | quoted
  /-- Behind a quote in such a cell. -/
  | behindQuote
  deriving DecidableEq, Repr

/-- What has been read of a table. The latest byte, cell or record comes first. -/
structure Scan where
  position : Position := .recordStart
  cell : Cell := []
  cells : List Cell := []
  records : List (List Cell) := []

namespace Scan

/-- Adds a byte to the cell. -/
def push (position : Position) (byte : UInt8) (scan : Scan) : Scan :=
  { scan with position, cell := byte :: scan.cell }

/-- Ends the cell. -/
def endCell (scan : Scan) : Scan :=
  { scan with position := .cellStart, cell := [], cells := scan.cell.reverse :: scan.cells }

/-- Ends the cell and the record. -/
def endRecord (scan : Scan) : Scan :=
  { position := .recordStart, cell := [], cells := []
    records := (scan.cell.reverse :: scan.cells).reverse :: scan.records }

/-- Reads a byte outside of quotes. -/
def plainByte (byte : UInt8) (scan : Scan) : Scan :=
  if byte = comma then scan.endCell
  else if isLineEnd byte then scan.endRecord
  else scan.push .plain byte

/-- Reads the first byte of a cell. -/
def firstByte (byte : UInt8) (scan : Scan) : Scan :=
  if byte = quote then { scan with position := .quoted } else scan.plainByte byte

/-- Reads a byte. -/
def step (scan : Scan) (byte : UInt8) : Scan :=
  match scan.position with
  | .recordStart => if isLineEnd byte then scan else scan.firstByte byte
  | .cellStart => scan.firstByte byte
  | .plain => scan.plainByte byte
  | .quoted => if byte = quote then { scan with position := .behindQuote }
    else scan.push .quoted byte
  | .behindQuote => if byte = quote then scan.push .quoted byte else scan.plainByte byte

/-- Ends the table. -/
def finish (scan : Scan) : List (List Cell) :=
  match scan.position with
  | .recordStart => scan.records.reverse
  | _ => scan.endRecord.records.reverse

end Scan

/-- A table without the mark that shows its bytes to be UTF-8. -/
def dropMark : List UInt8 → List UInt8
  | 0xef :: 0xbb :: 0xbf :: rest => rest
  | bytes => bytes

/-- The records of a table. -/
def records (table : List UInt8) : List (List Cell) :=
  ((dropMark table).foldl Scan.step {}).finish

/-- A line of cells. Cells with a comma, a quote or the end of a line in them cannot be written. -/
def line (cells : List String) : String :=
  String.intercalate "," cells ++ "\n"

end Prepaid.Csv
