import TableRecipe.Table.Basic

/-!
# Changing a table

The operations that change a table in place. An edit that fails leaves behind what it changed
before it failed.

* `Edit` — a change that may fail;
* `Edit.setColumn`, `Edit.dropColumn`, `Edit.dropColumns`, `Edit.renameColumn` — the changes;
* `Table.edit` — the table after a change that succeeds;
* `Table.ofColumns` — a table built column by column.
-/

namespace TableRecipe

/-- a change of a table that may fail -/
abbrev Edit := ExceptT Error (StateM Table)

namespace Edit

/-- the labels of the rows, which the first column of an empty table brings with it -/
def indexFor (table : Table) (cells : List Value) : List Nat :=
  if table.columns.isEmpty && table.index.isEmpty then List.range cells.length else table.index

/-- replaces the cells of the first column of a name, or adds a column at the end -/
def putCells (name : String) (cells : List Value) : List Column → List Column
  | [] => [⟨name, cells⟩]
  | column :: rest =>
    if column.name = name then ⟨column.name, cells⟩ :: rest
    else column :: putCells name cells rest

/-- inserts a column, or replaces its cells in place -/
def setColumn (name : String) (cells : List Value) : Edit Unit := do
  let table ← get
  let index := indexFor table cells
  if cells.length = index.length then
    set { table with index, columns := putCells name cells table.columns }
  else
    throw (.validation
      s!"column '{name}' has {cells.length} values but the dataset has {index.length} rows")

/-- removes a column and answers its cells -/
def dropColumn (name : String) : Edit (List Value) := do
  let table ← get
  let cells ← table.cells name
  set { table with
    columns := table.columns.eraseP (·.name = name)
    dates := table.dates.filter (· ≠ name) }
  return cells

/-- removes columns one after the other, once each of them was found to be there -/
def dropColumns (names : List String) : Edit Unit := do
  let table ← get
  names.forM fun name => discard (table.cells name : Except Error (List Value))
  names.forM fun name => discard (dropColumn name)

/-- the columns with the first one of a name renamed -/
def renameFirst (source target : String) : List Column → List Column
  | [] => []
  | column :: rest =>
    if column.name = source then { column with name := target } :: rest
    else column :: renameFirst source target rest

/-- renames a column; its date mark goes with it -/
def renameColumn (source target : String) : Edit Unit := do
  if source = target then return
  let table ← get
  if table.has target then
    throw (.validation s!"cannot rename '{source}' to '{target}': column already exists")
  if !table.has source then throw (.unknownColumn source)
  let dates :=
    if table.isDate source then Table.insertName target (table.dates.filter (· ≠ source))
    else table.dates
  set { table with columns := renameFirst source target table.columns, dates }

/-- marks a column as a date, if it is there -/
def markDate (name : String) : Edit Unit := modify (·.markDate name)

end Edit

namespace Table

/-- the table after a change, if it succeeds -/
def edit (table : Table) (change : Edit Unit) : Except Error Table :=
  match change.run table with
  | (.ok _, table) => .ok table
  | (.error error, _) => .error error

/-- a table from columns with distinct names -/
def ofColumns (columns : List Column) : Except Error Table :=
  columns.foldlM (fun table column =>
    if table.has column.name then throw (.validation s!"duplicate column '{column.name}'")
    else table.edit (Edit.setColumn column.name column.cells)) {}

/-- the table with its rows labelled anew from zero -/
def resetIndex (table : Table) : Table := { table with index := List.range table.length }

end Table

end TableRecipe
