import TableRecipe.Connector.Use
import TableRecipe.Recipe.Task
import TableRecipe.Table.Combine

/-!
# Reading

A section that reads has one entry at most. Its source is a connector, a custom function, a
recipe, a matrix, or a combination of other sources.

* `Recipe.readSection` — the table that a section reads;
* `Recipe.readEntry` — the part of a source that an entry reads;
* `Recipe.combine` — tables joined, put below each other or side by side.
-/

namespace TableRecipe.Recipe

/-! ## Several sources -/

/-- how tables are joined: the key columns of both sides, and the kind -/
def joinParams (params : Fields) : Except Error (List String × List String × JoinKind) := do
  let kind ← match Fields.find? "how" params with
    | none => pure .inner
    | some (.string word) => JoinKind.ofWord word
    | some other => throw (.validation s!"join 'how' must be a string, got {other.json}")
  let both ← Params.selectors params "on"
  let orBoth := fun (columns : List String) => if columns.isEmpty then both else columns
  let left ← Params.selectors params "left_on"
  let right ← Params.selectors params "right_on"
  return (orBoth left, orBoth right, kind)

/-- the table that an entry makes of several -/
def combine (key : String) (params : Fields) : List Table → Except Error Table
  | [] => .ok {}
  | first :: others =>
    match key with
    | "union" => .ok (others.foldl Table.union first)
    | "concatenate" => others.foldlM Table.concatenate first
    | _ => do
      let (left, right, kind) ← joinParams params
      others.foldlM (fun table other => table.join other left right kind) first

/-- the sources of an entry that combines several -/
def sources (key : String) (params : Fields) : Except Error (List Value) :=
  match Fields.find? "sources" params with
  | some (.list [])  | some (.list [_]) =>
    .error (.validation s!"{key} needs at least two sources")
  | some (.list entries) => .ok entries
  | _ => .error (.validation s!"{key} requires a 'sources' list")

/-- reads several sources and combines them -/
def readCombined (run : Runner) (key : String) (params : Fields) (table : Option Table)
    (bindings : Fields) : Engine Table := do
  let entries ← Engine.ofExcept (sources key params)
  let tables ← entries.mapM fun entry => run (.readEntry entry table bindings)
  Engine.ofExcept (combine key params tables)

/-- reads once for every binding of a matrix and puts all rows below each other -/
def readMatrix (run : Runner) (params : Fields) (table : Option Table) (bindings : Fields) :
    Engine Table := do
  let body ← Engine.ofExcept (matrixBody params "read" "read")
  let tables ← eachBinding params table bindings body fun body bindings =>
    run (.read body table bindings)
  match tables with
  | [] => return {}
  | first :: others => return others.foldl Table.union first

/-! ## One source -/

/-- the row that a custom function returns among others -/
def rowOf (function : String) : Value → Except Error Fields
  | .object row => .ok row
  | other => .error (.contractViolation function s!"rows must be objects, got {other.json}")

/-- the table that a custom function returns, or the rows of it -/
def tableOf (function : String) : Output → Except Error Table
  | .table table => .ok table
  | .value (.list rows) => return .ofRows (← rows.mapM (rowOf function))
  | .value other => .error (.contractViolation function
      s!"a read function must return a dataset or a list of rows, got {other.json}")

/-- reads from a custom function -/
def readFunction (name : String) (params : Fields) : Engine Table := do
  let function ← Engine.function name
  Engine.ofExcept (tableOf name (← Engine.call function none params))

/-- what an entry reads from -/
inductive Origin where
  /-- a combination of other sources -/
  | combination
  /-- a matrix -/
  | matrix
  /-- a recipe -/
  | recipe
  /-- a custom function -/
  | function (name : String)
  /-- a connector -/
  | connector (connector : Connector)

/-- what the entry of the name `key` reads from; a connector must be known -/
def originOf (key : String) : Engine Origin :=
  match key with
  | "join" | "union" | "concatenate" => return .combination
  | "matrix" => return .matrix
  | "recipe" => return .recipe
  | _ =>
    match CustomFunction.reference? key with
    | some name => return .function name
    | none => return .connector (← Engine.connector key)

/-- reads from what an entry reads from -/
def readOrigin (run : Runner) (key : String) (params : Fields) (table : Option Table)
    (bindings : Fields) : Origin → Engine Table
  | .combination => readCombined run key params table bindings
  | .matrix => readMatrix run params table bindings
  | .recipe => nested run params none
  | .function name => readFunction name (Fields.without params projectionParams)
  | .connector connector => connector.read (Fields.without params projectionParams)

/-- the part of a source that an entry reads. Failures while reading tell the place of the entry;
those of choosing the part, and an unknown connector, do not. -/
def readEntry (run : Runner) (entry : Value) (table : Option Table) (bindings : Fields) :
    Engine Table := do
  let (key, params) ← Engine.ofExcept (keyAndParams "read" entry)
  let params ← Engine.ofExcept (Params.ofValue key params)
  let origin ← originOf key
  let result ← Engine.locating s!"read ({key})" key
    (readOrigin run key params table bindings origin)
  Engine.ofExcept (project result params)

/-- the table that a section reads; without an entry it is the table that is there -/
def readSection (run : Runner) (body : Value) (table : Option Table) (bindings : Fields) :
    Engine Table := do
  match ← Engine.ofExcept (entries "read" body) with
  | [] => return table.getD {}
  | [entry] => readEntry run entry table bindings
  | _ => throw (.validation
      "read takes a single source; combine several with join, union or concatenate")

end TableRecipe.Recipe
