import TableRecipe.Condition.Evaluate
import TableRecipe.Step.Params
import TableRecipe.Table.Edit

/-!
# Sections of recipes

* `Recipe.entries` — the entries of a section;
* `Recipe.keyAndParams` — the name and the parameters of an entry;
* `Recipe.project` — the part of a table that an entry reads or writes;
* `Recipe.mergeSelected` — a table with the rows that a step changed put back;
* `Recipe.mergeColumns` — a table with columns taken over by label.
-/

namespace TableRecipe.Recipe

/-- the entries of a section: a list of them, one alone, or none -/
def entries (part : String) : Value → Except Error (List Value)
  | .list items => .ok items
  | .object entry => .ok [.object entry]
  | .null => .ok []
  | other => .error (.validation
      s!"'{part}' must be a list or a mapping, got {other.json}")

/-- the name and the parameters of an entry: a mapping with one name, or a name alone -/
def keyAndParams (part : String) : Value → Except Error (String × Value)
  | .object [(key, params)] => .ok (key, params)
  | .string key => .ok (key, .null)
  | other => .error (.validation
      s!"each '{part}' entry must be a mapping with exactly one key, got {other.json}")

/-! ## Parts of tables -/

/-- the parameters of an entry that choose the part of a table -/
def projectionParams : List String := ["columns", "not_columns", "where", "where_params"]

/-- the condition in a parameter -/
def conditionText : Value → Except Error String
  | .string text => .ok text
  | other => .error (.validation s!"'where' must be a string, got {other.json}")

/-- the rows that satisfy the condition in parameters -/
def selectRows (table : Table) (params : Fields) : Except Error Table := do
  match Fields.find? "where" params with
  | some condition =>
    let text ← conditionText condition
    Condition.filterText table text ((Fields.find? "where_params" params).getD .null)
  | none => return table

/-- the part of a table that parameters choose: rows by `where`, then columns by `columns`, then
all but those in `not_columns` -/
def project (table : Table) (params : Fields) : Except Error Table := do
  let table ← selectRows table params
  let table ← match Fields.find? "columns" params with
    | some columns => table.select (← Selector.expand table.names (← Selector.ofValue columns))
    | none => pure table
  match Fields.find? "not_columns" params with
  | some columns =>
    table.edit (Edit.dropColumns (← Selector.expand table.names (← Selector.ofValue columns)))
  | none => return table

/-! ## Rows put back -/

/-- the cells of a column, or nulls if there is no such column -/
def cellsOrNulls (table : Table) (column : String) : List Value :=
  (table.cells? column).getD (List.replicate table.length .null)

/-- puts cells at positions, one after the other -/
def putAt (cells : List Value) (changes : List (Nat × Value)) : List Value :=
  changes.foldl (fun cells (position, cell) => cells.set position cell) cells

/-- the rows of a table that carry the labels of another, of which each must be there -/
def positionsOf (table changed : Table) : Except Error (List Nat) :=
  changed.index.mapM fun label =>
    match table.lastPosition? label with
    | some position => .ok position
    | none => .error (.unsupported
        s!"row {label} produced under the where clause does not exist in the dataset")

/-- the columns that a step added -/
def addedColumns (table changed : Table) : List String := changed.names.filter (!table.has ·)

/-- the columns that are put back: those in `output`; else those in `input` that are still there
and those that the step added; else those that it added -/
def mergedColumns (table changed : Table) (params : Fields) : Except Error (List String) := do
  match Fields.find? "output" params, Fields.find? "input" params with
  | some output, _ => Selector.ofValue output
  | none, some input =>
    let columns ← Selector.expand table.names (← Selector.ofValue input)
    return columns.filter changed.has ++ addedColumns table changed
  | none, none => return addedColumns table changed

/-- puts a column back: cells that are not null, at the positions given; its date mark goes with
it -/
def mergeColumn (changed : Table) (positions : List Nat) (merged : Table) (column : String) :
    Except Error Table := do
  let incoming ← changed.cells column
  let changes := (positions.zip incoming).filter fun (_, cell) => !cell.isNull
  let cells := putAt (cellsOrNulls merged column) changes
  let merged ← merged.edit (Edit.setColumn column cells)
  return if changed.isDate column then merged.markDate column else merged

/-- a table with the rows put back that a step with given parameters changed -/
def mergeSelected (table changed : Table) (params : Fields) : Except Error Table := do
  let positions ← positionsOf table changed
  (← mergedColumns table changed params).foldlM (mergeColumn changed positions) table

/-- a table with one column taken over from another, wherever the labels of rows agree -/
def takeColumn (result merged : Table) (column : String) : Except Error Table := do
  let incoming ← result.cells column
  let changes := (result.index.zip incoming).filterMap fun (label, cell) =>
    (merged.lastPosition? label).map (·, cell)
  merged.edit (Edit.setColumn column (putAt (cellsOrNulls merged column) changes))

/-- a table with columns taken over from another, wherever the labels of rows agree -/
def mergeColumns (table result : Table) (columns : List String) : Except Error Table :=
  columns.foldlM (takeColumn result) table

end TableRecipe.Recipe
