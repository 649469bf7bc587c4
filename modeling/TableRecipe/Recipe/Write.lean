import TableRecipe.Connector.Use
import TableRecipe.Recipe.Task

/-!
# Writing

Every entry of a section that writes receives the part of the table that it chooses. The first
entry `dataframe` decides what the recipe returns; without one it returns the whole table.

* `Recipe.writeSection` — the table that a recipe returns, and how many entries wrote;
* `Recipe.writeEntry` — the table that an entry returns, if it returns one.
-/

namespace TableRecipe.Recipe

/-- writes a table to the target of an entry -/
def writeTo (run : Runner) (key : String) (params : Fields) (table : Table) (bindings : Fields) :
    Engine Unit :=
  match key with
  | "dataframe" => pure ()
  | "matrix" => do
    let body ← Engine.ofExcept (matrixBody params "write" "write")
    let _ ← eachBinding params (some table) bindings body fun body bindings =>
      run (.write body table bindings)
  | "recipe" => do
    let _ ← nested run params (some table)
  | _ =>
    match CustomFunction.reference? key with
    | some name => do
      let _ ← Engine.call (← Engine.function name) (some table) params
    | none => do (← Engine.connector key).write table params

/-- writes the part of a table that an entry chooses; it is returned if the entry says so -/
def writePart (run : Runner) (key : String) (params : Fields) (table : Table)
    (bindings : Fields) : Engine (Option Table) := do
  let part ← Engine.ofExcept (project table params)
  writeTo run key (Fields.without params projectionParams) part bindings
  return if key = "dataframe" then some part else none

/-- writes a table as an entry of a section says -/
def writeEntry (run : Runner) (table : Table) (bindings : Fields) (entry : Value) :
    Engine (Option Table) := do
  let (key, params) ← Engine.ofExcept (keyAndParams "write" entry)
  let params ← Engine.ofExcept (Params.ofValue key params)
  Engine.locating s!"write ({key})" key (writePart run key params table bindings)

/-- writes a table as the entries of a section say, one after the other: the table that is
returned, and how many entries wrote -/
def writeSection (run : Runner) (body : Value) (table : Table) (bindings : Fields) :
    Engine (Table × Nat) := do
  let targets ← Engine.ofExcept (entries "write" body)
  let returned ← targets.mapM (writeEntry run table bindings)
  return ((returned.findSome? id).getD table, targets.length)

end TableRecipe.Recipe
