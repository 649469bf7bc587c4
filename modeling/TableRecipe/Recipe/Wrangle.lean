import TableRecipe.Recipe.Task
import TableRecipe.Step.Apply

/-!
# Steps of recipes

A step with a condition works on the rows that satisfy it; what it changes is put back into the
whole table. Some steps reshape rows: these take the condition themselves, or refuse it.

* `Recipe.applySteps` — the table after a section of steps;
* `Recipe.applyStep` — the table after a step, which may have a condition;
* `Recipe.dispatch` — the table after a step without its condition.
-/

namespace TableRecipe.Recipe

/-- the steps that reshape rows -/
def reshaping : List String :=
  ["transpose", "filter", "rename", "sql", "drop", "split.list", "reindex", "select.group_by",
    "matrix", "recipe", "select.head"]

/-- a recipe as a step: its table, or columns of it taken over -/
def applyRecipe (run : Runner) (params : Fields) (table : Table) : Engine Table := do
  let output ← Engine.ofExcept (Params.selectors params "output_columns")
  let result ← nested run params (some table)
  if output.isEmpty then return result
  let columns ← Engine.ofExcept (Selector.expand result.names output)
  Engine.ofExcept (mergeColumns table result columns)

/-- a matrix as a step: its steps once for every binding, each time on the table that the last
time left -/
def applyMatrix (run : Runner) (params : Fields) (table : Table) (bindings : Fields) :
    Engine Table := do
  let body ← Engine.ofExcept (matrixBody params "wrangles" "wrangle")
  (← Matrix.bindings params (some table)).foldlM (fun table binding => do
    let bindings := Fields.extend bindings binding
    let (table, _) ← run (.steps (← resolved body bindings) table bindings)
    return table) table

/-- the failure of a step that was given a condition and cannot use it -/
def conditionRefused (key : String) : Error :=
  .unsupported s!"'{key}' cannot be combined with a where clause"

/-- the table after a step; `conditional` says whether its parameters hold a condition that it
must evaluate itself -/
def dispatch (run : Runner) (key : String) (params : Fields) (table : Table) (bindings : Fields)
    (conditional : Bool) : Engine Table :=
  match key with
  | "recipe" =>
    if conditional then throw (conditionRefused key) else applyRecipe run params table
  | "matrix" =>
    if conditional then throw (conditionRefused key) else applyMatrix run params table bindings
  | _ =>
    match CustomFunction.reference? key with
    | some name => do (← Engine.function name).invoke table params
    | none => do
      let step ← Engine.ofExcept (Step.named (← read).steps key (.object params))
      if conditional && !step.kind.takesCondition then throw (conditionRefused key)
      step.apply table

/-- the table after a step on the rows that satisfy its condition, put back -/
def applySelected (run : Runner) (key : String) (params : Fields) (condition : Value)
    (table : Table) (bindings : Fields) : Engine Table := do
  let text ← Engine.ofExcept (conditionText condition)
  let selected ← Engine.ofExcept
    (Condition.filterText table text ((Fields.find? "where_params" params).getD .null))
  let inner := Fields.without params ["where", "where_params"]
  let changed ← dispatch run key inner selected bindings false
  Engine.ofExcept (mergeSelected table changed inner)

/-- the table after a step -/
def applyStep (run : Runner) (key : String) (params : Value) (table : Table)
    (bindings : Fields) : Engine Table := do
  let params ← Engine.ofExcept (Params.ofValue key params)
  match Fields.find? "where" params with
  | none => dispatch run key params table bindings false
  | some condition =>
    if reshaping.contains key then dispatch run key params table bindings true
    else applySelected run key params condition table bindings

/-- the table after an entry of a section of steps, the `number`th, and the steps applied by
then; missing cells become empty texts -/
def applyEntry (run : Runner) (bindings : Fields) :
    Table × List String → Value × Nat → Engine (Table × List String)
  | (table, applied), (entry, number) => do
    let (key, params) ← Engine.ofExcept (keyAndParams "wrangles" entry)
    let result ← Engine.locating s!"wrangle #{number} ({key})" key
      (applyStep run key params table bindings)
    return (result.fillMissing, applied ++ [key])

/-- the table after a section of steps, and the steps applied -/
def applySteps (run : Runner) (body : Value) (table : Table) (bindings : Fields) :
    Engine (Table × List String) := do
  let steps ← Engine.ofExcept (entries "wrangles" body)
  (steps.zipIdx 1).foldlM (applyEntry run bindings) (table, [])

end TableRecipe.Recipe
