import TableRecipe.Json.Printer
import TableRecipe.Error

/-!
# Tables

A table is a list of named columns over rows that carry labels. The labels stay with their rows
when rows are filtered out, so that a part of a table can be merged back into the whole. Names
of columns may be marked as dates, which decides what fills their empty cells.

* `Table` — columns, labels, date marks;
* `Table.Rectangular`, `Table.DistinctNames` — what well-formed tables satisfy;
* `Table.cell?`, `Table.row`, `Table.rows` — looking up;
* `Table.ofRows`, `Table.ofColumns` — building;
* `Table.select`, `Table.takeRows`, `Table.filterMask` — parts of a table;
* `Table.fillMissing` — replaces empty cells.
-/

namespace TableRecipe

/-- a named column -/
structure Column where
  /-- the name -/
  name : String
  /-- one cell per row -/
  cells : List Value
  deriving Repr, DecidableEq, Inhabited

/-- a table -/
structure Table where
  /-- the columns, in order -/
  columns : List Column := []
  /-- the label of each row -/
  index : List Nat := []
  /-- the names marked as dates, ascending -/
  dates : List String := []
  deriving Repr, DecidableEq, Inhabited

namespace Table

/-! ## Shape -/

/-- every column has one cell per row -/
def Rectangular (table : Table) : Prop :=
  ∀ column ∈ table.columns, column.cells.length = table.index.length

/-- the names of the columns -/
def names (table : Table) : List String := table.columns.map (·.name)

/-- no two columns share a name -/
def DistinctNames (table : Table) : Prop := table.names.Nodup

/-- the number of rows -/
def length (table : Table) : Nat := table.index.length

/-- the number of columns -/
def width (table : Table) : Nat := table.columns.length

/-! ## Looking up -/

/-- the place of the first column of a name -/
def position? (table : Table) (name : String) : Option Nat :=
  table.columns.findIdx? (·.name = name)

/-- whether there is a column of the name -/
def has (table : Table) (name : String) : Bool := table.columns.any (·.name = name)

/-- the cells of the first column of a name -/
def cells? (table : Table) (name : String) : Option (List Value) :=
  (table.columns.find? (·.name = name)).map (·.cells)

/-- the cells of a column that must be there -/
def cells (table : Table) (name : String) : Except Error (List Value) :=
  match table.cells? name with
  | some cells => .ok cells
  | none => .error (.unknownColumn name)

/-- one cell -/
def cell? (table : Table) (name : String) (row : Nat) : Option Value :=
  (table.cells? name).bind (·[row]?)

/-- one cell, null where there is none -/
def cell (table : Table) (name : String) (row : Nat) : Value := (table.cell? name row).getD .null

/-- a row as a mapping of column names to cells -/
def row (table : Table) (position : Nat) : Fields :=
  Fields.ofPairs (table.columns.map fun column =>
    (column.name, (column.cells[position]?).getD .null))

/-- all rows -/
def rows (table : Table) : List Fields := (List.range table.length).map table.row

/-- the last row that carries a label -/
def lastPosition? (table : Table) (label : Nat) : Option Nat :=
  (table.index.zipIdx.reverse.find? (·.1 = label)).map (·.2)

/-- the first row that carries a label -/
def firstPosition? (table : Table) (label : Nat) : Option Nat := table.index.findIdx? (· = label)

/-- whether the name is marked as a date -/
def isDate (table : Table) (name : String) : Bool := table.dates.contains name

/-! ## Date marks -/

/-- adds a name to an ascending list without repetition -/
def insertName (name : String) : List String → List String
  | [] => [name]
  | other :: rest =>
    if name < other then name :: other :: rest
    else if name = other then other :: rest
    else other :: insertName name rest

/-- the names of both lists, ascending -/
def uniteNames (left right : List String) : List String :=
  right.foldl (fun all name => insertName name all) left

/-- marks a column as a date, if it is there -/
def markDate (table : Table) (name : String) : Table :=
  if table.has name then { table with dates := insertName name table.dates } else table

/-! ## Building -/

/-- a table without columns whose rows carry the labels given -/
def ofIndex (index : List Nat) : Table := { index }

/-- names in order of their first occurrence -/
def distinctNames (names : List String) : List String :=
  names.foldl (fun seen name => if seen.contains name then seen else seen ++ [name]) []

/-- a table from rows: columns in the order in which their names first occur, cells that a row
lacks being null -/
def ofRows (rows : List Fields) : Table :=
  let names := distinctNames (rows.flatMap Fields.names)
  { columns := names.map fun name =>
      ⟨name, rows.map fun row => (Fields.find? name row).getD .null⟩
    index := List.range rows.length }

/-! ## Parts -/

/-- the columns named, in the order of the names -/
def select (table : Table) (names : List String) : Except Error Table := do
  let columns ← names.mapM fun name => return ⟨name, ← table.cells name⟩
  return { columns, index := table.index, dates := table.dates.filter names.contains }

/-- the rows at the positions, with their labels; positions beyond the last row are passed over -/
def takeRows (table : Table) (positions : List Nat) : Table :=
  { table with
    columns := table.columns.map fun column =>
      { column with cells := positions.filterMap (column.cells[·]?) }
    index := positions.filterMap (table.index[·]?) }

/-- the positions at which a mask is true -/
def positionsOf (mask : List Bool) : List Nat :=
  mask.zipIdx.filterMap fun (keep, position) => if keep then some position else none

/-- the rows at which a mask is true -/
def filterMask (table : Table) (mask : List Bool) : Table := table.takeRows (positionsOf mask)

/-- the distinct values of a list, told apart by their keys, in order of first occurrence -/
def distinct (seen : List String) : List Value → List Value
  | [] => []
  | value :: rest =>
    if seen.contains value.key then distinct seen rest
    else value :: distinct (value.key :: seen) rest

/-- the distinct values of a column, in order of first occurrence -/
def uniqueValues (table : Table) (name : String) : Except Error (List Value) :=
  return distinct [] (← table.cells name)

/-! ## Missing cells -/

/-- the start of the epoch, which stands for missing dates -/
def epoch : String := "1970-01-01T00:00:00"

/-- fills empty cells: with the epoch in date columns, with the empty text elsewhere -/
def fillMissing (table : Table) : Table :=
  { table with
    columns := table.columns.map fun column =>
      let filler := Value.string (if table.isDate column.name then epoch else "")
      { column with cells := column.cells.map fun cell => if cell.isNull then filler else cell } }

end Table

end TableRecipe
