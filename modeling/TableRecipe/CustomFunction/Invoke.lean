import TableRecipe.Engine
import TableRecipe.Step.Params
import TableRecipe.Table.Edit

/-!
# Calling custom functions

* `CustomFunction.callAlone` — a call without a table;
* `CustomFunction.invoke` — a call as a step: on the whole table, or on every row of it;
* `CustomFunction.rowArguments` — what a row passes under which names.
-/

namespace TableRecipe.CustomFunction

/-- the parameters that a function admits -/
def admitted (function : CustomFunction) (params : Fields) : Fields :=
  params.filter fun (name, _) => function.signature.admits name

/-- calls a function without a table; a table that it returns counts as the list of its rows -/
def callAlone (function : CustomFunction) (params : Fields) : Engine Value := do
  match ← Engine.call function none (function.admitted params) with
  | .value value => return value
  | .table table => return .list (table.rows.map .object)

/-- calls a function on a whole table -/
def invokeOnTable (function : CustomFunction) (table : Table) (params : Fields) :
    Engine Table := do
  let arguments := Fields.without params ["where", "where_params"]
  match ← Engine.call function (some table) arguments with
  | .table result => return result
  | .value value => throw (.contractViolation function.name
      s!"expected a dataset to be returned, got {value.json}")

/-! ## Row by row -/

/-- the name of a column with underscores for its blanks -/
def underscored (column : String) : String := column.map fun c => if c = ' ' then '_' else c

/-- the name under which a cell of a column is passed: that of the column, or its form with
underscores if the function declares it and the name of the column holds blanks -/
def keyword (function : CustomFunction) (column : String) : String :=
  if column.toList.contains ' ' && function.signature.declares (underscored column) then
    underscored column
  else column

/-- the parameters of a step that it does not pass on -/
def reserved : List String := ["input", "output", "where", "where_params"]

/-- the parameters of a step that a function admits -/
def passedOn (function : CustomFunction) (params : Fields) : Fields :=
  function.admitted (Fields.without params reserved)

/-- what a call for a row passes: the cells that the function admits, and over them the parameters
of the step -/
def rowArguments (function : CustomFunction) (table : Table) (columns : List String)
    (params : Fields) (row : Nat) : Fields :=
  let cells := columns.filterMap fun column =>
    let name := function.keyword column
    if function.signature.admits name then some (name, table.cell column row) else none
  Fields.extend (Fields.ofPairs cells) params

/-- calls a function for a row and, if it fails, with the parameters of the step alone; if it
fails again, the first failure counts -/
def callForRow (function : CustomFunction) (arguments params : Fields) : Engine Output := do
  match ← (Engine.call function none arguments).attempt with
  | .ok output => return output
  | .error first =>
    match ← (Engine.call function none params).attempt with
    | .ok output => return output
    | .error _ => throw first

/-- the cells for the output columns that a call for a row returns -/
def cellsOf (function : CustomFunction) (output : List String) : Output → Except Error (List Value)
  | .table _ => .error (.contractViolation function.name
      "a row-wise function must return a value, not a dataset")
  | .value value =>
    if output.length = 1 then .ok [value]
    else
      let refusal := Error.contractViolation function.name
        (s!"expected a list of {output.length} values for outputs {Quoted.list output}, "
          ++ s!"got {value.json}")
      match value with
      | .list items => if items.length = output.length then .ok items else .error refusal
      | _ => .error refusal

/-- the columns that a step puts into a function, if it names any, and those that it fills -/
def inputAndOutput (function : CustomFunction) (table : Table) (params : Fields) :
    Except Error (Option (List String) × List String) := do
  let input ← match Fields.find? "input" params with
    | some selectors => some <$> Selector.expand table.names (← Selector.ofValue selectors)
    | none => pure none
  let output ← match Fields.find? "output" params, input with
    | some names, _ => Selector.ofValue names
    | none, some input => pure input
    | none, none => throw (.validation
        s!"custom.{function.name} needs an 'output' when no 'input' is given")
  if output.isEmpty then throw (.validation "'output' must name at least one column")
  return (input, output)

/-- fills columns with the cells of every row -/
def putRows (table : Table) (output : List String) (rows : List (List Value)) :
    Except Error Table :=
  output.zipIdx.foldlM (fun table (column, place) =>
    table.edit (Edit.setColumn column (rows.map fun cells => (cells[place]?).getD .null))) table

/-- calls a function for every row of a table -/
def invokeOnRows (function : CustomFunction) (table : Table) (params : Fields) :
    Engine Table := do
  let (input, output) ← Engine.ofExcept (function.inputAndOutput table params)
  let columns := input.getD table.names
  let passed := function.passedOn params
  let rows ← (List.range table.length).mapM fun row => do
    let arguments := function.rowArguments table columns passed row
    Engine.ofExcept (function.cellsOf output (← function.callForRow arguments passed))
  Engine.ofExcept (putRows table output rows)

/-- applies a function to a table as a step -/
def invoke (function : CustomFunction) (table : Table) (params : Fields) : Engine Table :=
  if function.signature.acceptsTable then function.invokeOnTable table params
  else function.invokeOnRows table params

end TableRecipe.CustomFunction
