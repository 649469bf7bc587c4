import TableRecipe.Error

/-!
# Comma-separated records

Records of cells: cells are separated by commas and records by line ends. A cell that holds a
comma, a quote or a line end is written between quotes, the quotes inside it doubled. Empty lines
are no records.

* `Csv.write` — the text of records;
* `Csv.records` — the records of a text;
* `Csv.read?` — the records of a text in which all records have the same number of cells.
-/

namespace TableRecipe.Csv

/-! ## Writing -/

/-- whether a character ends a record -/
def isLineEnd (c : Char) : Bool := c = '\n' || c = '\r'

/-- whether a cell with the character is written between quotes -/
def needsQuotes (c : Char) : Bool := c = ',' || c = '"' || isLineEnd c

/-- the text of a cell -/
def writeCell (cell : List Char) : List Char :=
  if cell.any needsQuotes then
    '"' :: (cell.flatMap (fun c => if c = '"' then ['"', '"'] else [c]) ++ ['"'])
  else cell

/-- cells separated by commas -/
def writeCells : List (List Char) → List Char
  | [] => []
  | [cell] => writeCell cell
  | cell :: rest => writeCell cell ++ ',' :: writeCells rest

/-- the text of a record; one that would leave its line empty is written as a pair of quotes -/
def writeRecord (cells : List (List Char)) : List Char :=
  let line := writeCells cells
  (if line.isEmpty then ['"', '"'] else line) ++ ['\n']

/-- the text of records -/
def write (records : List (List String)) : String :=
  String.ofList (records.flatMap fun cells => writeRecord (cells.map String.toList))

/-! ## Reading -/

/-- where a reader stands -/
inductive Place where
  /-- before a record -/
  | beforeRecord
  /-- before a cell -/
  | beforeCell
  /-- in a cell without quotes, or behind its quotes -/
  | inCell
  /-- in a cell between quotes -/
  | inQuotes
  /-- behind a quote in a cell between quotes -/
  | behindQuote
  deriving DecidableEq, Repr

/-- what was read so far, the latest first -/
structure Progress where
  /-- where the reader stands -/
  place : Place := .beforeRecord
  /-- the characters of the cell -/
  cell : List Char := []
  /-- the finished cells of the record -/
  cells : List String := []
  /-- the finished records -/
  records : List (List String) := []
  deriving DecidableEq, Repr

namespace Progress

/-- a character of the cell -/
def take (progress : Progress) (place : Place) (c : Char) : Progress :=
  { progress with place, cell := c :: progress.cell }

/-- the end of the cell -/
def endCell (progress : Progress) : Progress :=
  { progress with
    place := .beforeCell
    cell := []
    cells := String.ofList progress.cell.reverse :: progress.cells }

/-- the end of the cell and of the record -/
def endRecord (progress : Progress) : Progress :=
  { records := progress.endCell.cells.reverse :: progress.records }

/-- a character outside of quotes -/
def stepOutside (progress : Progress) (c : Char) : Progress :=
  if c = ',' then progress.endCell
  else if isLineEnd c then progress.endRecord
  else progress.take .inCell c

/-- one more character -/
def step (progress : Progress) (c : Char) : Progress :=
  match progress.place with
  | .beforeRecord =>
    if isLineEnd c then progress
    else if c = '"' then { progress with place := .inQuotes }
    else progress.stepOutside c
  | .beforeCell =>
    if c = '"' then { progress with place := .inQuotes } else progress.stepOutside c
  | .inCell => progress.stepOutside c
  | .inQuotes =>
    if c = '"' then { progress with place := .behindQuote } else progress.take .inQuotes c
  | .behindQuote => if c = '"' then progress.take .inQuotes c else progress.stepOutside c

/-- the records at the end of the text, which also ends the last record -/
def finish (progress : Progress) : List (List String) :=
  match progress.place with
  | .beforeRecord => progress.records.reverse
  | _ => progress.endRecord.records.reverse

end Progress

/-- the text without a mark of its byte order -/
def dropMark : List Char → List Char
  | c :: rest => if c.toNat = 0xfeff then rest else c :: rest
  | [] => []

/-- the records of a text -/
def records (text : String) : List (List String) :=
  ((dropMark text.toList).foldl Progress.step {}).finish

/-- the records of a text, if they all have the same number of cells -/
def read? (text : String) : Option (List (List String)) :=
  match records text with
  | [] => some []
  | first :: rest =>
    if rest.all (·.length = first.length) then some (first :: rest) else none

end TableRecipe.Csv
