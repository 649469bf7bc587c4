import TableRecipe.Condition.Evaluate
import TableRecipe.Remote.Batch
import TableRecipe.Step.Basic
import TableRecipe.Table.Edit

/-!
# Applying steps

* `Table.convertColumns` — columns computed cell by cell from others, one pair after the other;
* `Table.renameColumns` — columns renamed one after the other;
* `Table.passing` — the rows whose cells pass a test;
* `Table.joinTexts` — a column with the joined texts of others;
* `Table.putAnswers` — columns filled from the answers of a remote service;
* `Step.apply` — the table after a step.
-/

namespace TableRecipe

namespace Table

/-- computes columns cell by cell, for every pair of a source and a target -/
def convertColumns (convert : Value → Except Error Value) (table : Table)
    (pairs : List (String × String)) : Except Error Table :=
  pairs.foldlM (fun table (source, target) => do
    let cells ← (← table.cells source).mapM convert
    table.edit (Edit.setColumn target cells)) table

/-- converts cells to a type, for every pair of a source and a target; a column of points in time
becomes a date column -/
def convertTypes (type : CellType) (table : Table) (pairs : List (String × String)) :
    Except Error Table :=
  pairs.foldlM (fun table (source, target) => do
    let cells ← (← table.cells source).mapM type.convert
    let converted ← table.edit (Edit.setColumn target cells)
    return if type = .moment then converted.markDate target else converted) table

/-- renames columns one after the other -/
def renameColumns (table : Table) (names : List (String × String)) : Except Error Table :=
  names.foldlM (fun table (source, target) => table.edit (Edit.renameColumn source target)) table

/-- what the letter case of a cell becomes: texts alone have one -/
def respell (spelling : Spelling) : Value → Value
  | .string text => .string (spelling.apply text)
  | other => other

/-- the mask of the rows whose cells pass a test in all columns given -/
def passing (table : Table) (test : CellTest) (mask : List Bool) (columns : List String) :
    Except Error (List Bool) :=
  columns.foldlM (fun mask column => do
    let cells ← table.cells column
    return mask.zipWith (fun keep cell => keep && test.holds cell) cells) mask

/-- the text of a cell between separators; the items of a list are separated, too -/
def joinedText (separator : String) : Value → String
  | .list items => separator.intercalate (items.map Value.text)
  | other => other.text

/-- a column with the texts of other columns, joined row by row -/
def joinTexts (table : Table) (input : List String) (output separator : String) :
    Except Error Table := do
  let sources ← input.mapM table.cells
  let merged := (List.range table.length).map fun row =>
    Value.string (separator.intercalate
      (sources.map fun cells => joinedText separator ((cells[row]?).getD .null)))
  table.edit (Edit.setColumn output merged)

/-- the field of an answer under the name of a column -/
def fieldOf (output : List String) (step column : String) : Value → Except Error Value
  | .object fields => .ok ((Fields.find? column fields).getD .null)
  | other => .error (.unexpectedResponse
      s!"{step} expected objects to fill {Quoted.list output}, got {other.json}")

/-- fills columns from the answers of a remote service, one for every row: a single column takes
the answers themselves, several take the fields of their names -/
def putAnswers (table : Table) (output : List String) (answers : List Value) (step : String) :
    Except Error Table := do
  if answers.length ≠ table.length then
    throw (.unexpectedResponse
      s!"{step} received {answers.length} results for {table.length} rows")
  match output with
  | [column] => table.edit (Edit.setColumn column answers)
  | _ =>
    output.foldlM (fun table column => do
      let cells ← answers.mapM (fieldOf output step column)
      table.edit (Edit.setColumn column cells)) table

/-- the cells of a row in certain columns, by name -/
def rowOf (table : Table) (columns : List String) (row : Nat) : Value :=
  .object (Fields.ofPairs (columns.map fun column => (column, table.cell column row)))

end Table

namespace Step

/-- the rows that satisfy a condition and pass a test -/
def filterTable (table : Table) (condition : Option (Condition Operand)) (params : Value)
    (input : List String) (test : Option CellTest) : Except Error Table := do
  let mask ← match condition with
    | some condition => condition.mask table params
    | none => pure (List.replicate table.length true)
  let mask ← match test with
    | some test => table.passing test mask (← Selector.expand table.names input)
    | none => pure mask
  return table.filterMask mask

/-- a column sent to a remote service, many rows at a time -/
def applyBatch (table : Table) (request : Request) (input output : List String)
    (size : Option Nat) : Engine Table := do
  match ← Engine.ofExcept (Selector.expand table.names input) with
  | [column] =>
    let items ← Engine.ofExcept (table.cells column)
    let answers ← Remote.sendAll request items (size.getD (← read).settings.batchSize)
    Engine.ofExcept (table.putAnswers output answers.values "request.batch")
  | columns => throw (.ambiguousOutput
      s!"request.batch sends exactly one 'input' column, got {Quoted.list columns}")

/-- rows sent to a remote service, one at a time -/
def applyRow (table : Table) (request : Request) (input output : List String) :
    Engine Table := do
  let columns ← Engine.ofExcept (Selector.expand table.names input)
  let payloads := (List.range table.length).map (table.rowOf columns)
  let answers ← Engine.each payloads (Remote.send request)
  Engine.ofExcept (table.putAnswers output answers "request.row")

/-- the table after a step -/
def apply (table : Table) : Step → Engine Table
  | convertCase input output spelling => Engine.ofExcept do
    let pairs ← Params.pairs table.names input output "convert.case"
    table.convertColumns (fun cell => .ok (Table.respell spelling cell)) pairs
  | convertType input output type => Engine.ofExcept do
    let pairs ← Params.pairs table.names input output "convert.data_type"
    table.convertTypes type pairs
  | copy input output => Engine.ofExcept do
    table.convertColumns .ok (← Params.pairs table.names input output "copy")
  | drop columns => Engine.ofExcept do
    table.edit (Edit.dropColumns (← Selector.expand table.names columns))
  | rename input output [] => Engine.ofExcept do
    table.renameColumns (← Params.pairs table.names input output "rename")
  | rename _ _ names => Engine.ofExcept do
    table.renameColumns (← Selector.expandRenames table.names names)
  | selectColumns input => Engine.ofExcept do
    table.select (← Selector.expand table.names input)
  | selectHead count => return table.takeRows (List.range (min table.length count))
  | reindex => return table.resetIndex
  | filter condition params input test =>
    Engine.ofExcept (filterTable table condition params input test)
  | mergeConcatenate input output separator => Engine.ofExcept do
    table.joinTexts (← Selector.expand table.names input) output separator
  | requestBatch request input output size => applyBatch table request input output size
  | requestRow request input output => applyRow table request input output

end Step

end TableRecipe
