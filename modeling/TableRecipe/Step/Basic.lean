import TableRecipe.Condition.Parser
import TableRecipe.Remote.Exchange
import TableRecipe.Step.Kind
import TableRecipe.Step.Params
import TableRecipe.Step.Spelling
import TableRecipe.Step.CellType
import TableRecipe.Step.CellTest

/-!
# Steps

A built-in step with all that it needs to know, read from its parameters.

* `Step` — a step;
* `Step.build` — the step of a kind with given parameters;
* `Step.named` — the step of a name, among those known.
-/

namespace TableRecipe

/-- a built-in step, ready to be applied -/
inductive Step where
  /-- changes the letter case of texts -/
  | convertCase (input output : List String) (spelling : Spelling)
  /-- converts cells to a type -/
  | convertType (input output : List String) (type : CellType)
  /-- copies columns -/
  | copy (input output : List String)
  /-- removes columns -/
  | drop (columns : List String)
  /-- renames columns: by pairs of selectors and names if there are any -/
  | rename (input output : List String) (names : List (String × String))
  /-- keeps columns -/
  | selectColumns (input : List String)
  /-- keeps the first rows -/
  | selectHead (count : Nat)
  /-- labels the rows anew -/
  | reindex
  /-- keeps rows that satisfy a condition and a test in every input column -/
  | filter (condition : Option (Condition Operand)) (params : Value) (input : List String)
      (test : Option CellTest)
  /-- joins the texts of columns -/
  | mergeConcatenate (input : List String) (output separator : String)
  /-- sends a column to a remote service, many rows at a time -/
  | requestBatch (request : Request) (input output : List String) (size : Option Nat)
  /-- sends rows to a remote service, one at a time -/
  | requestRow (request : Request) (input output : List String)
  deriving Repr

namespace Step

/-- `input` columns, of which there must be some -/
def inputOf (params : Fields) (step : String) : Except Error (List String) := do
  let input ← Params.selectors params "input"
  if input.isEmpty then throw (.validation s!"{step} requires 'input'")
  return input

/-- `input` and `output` columns, of which there must be some -/
def inputAndOutput (params : Fields) (step : String) :
    Except Error (List String × List String) := do
  let input ← Params.selectors params "input"
  let output ← Params.selectors params "output"
  if input.isEmpty || output.isEmpty then
    throw (.validation s!"{step} requires 'input' and 'output'")
  return (input, output)

/-- a change of letter case, to small letters unless told otherwise -/
def buildConvertCase (params : Fields) : Except Error Step := do
  let input ← inputOf params "convert.case"
  let spelling ←
    if Fields.has params "case" then
      Spelling.ofWord (← Params.text params "case" "convert.case")
    else pure .lower
  return convertCase input (← Params.selectors params "output") spelling

/-- a conversion of cells -/
def buildConvertType (params : Fields) : Except Error Step := do
  let input ← inputOf params "convert.data_type"
  let type ← CellType.ofWord (← Params.text params "data_type" "convert.data_type")
  return convertType input (← Params.selectors params "output") type

/-- a removal of columns, given as `columns` or as `input` -/
def buildDrop (params : Fields) : Except Error Step := do
  let columns ← Params.selectors params "columns"
  let columns ← if columns.isEmpty then Params.selectors params "input" else pure columns
  if columns.isEmpty then throw (.validation "drop requires 'columns'")
  return drop columns

/-- a new name in the parameters of a renaming -/
def newName (entry : String × Value) : Except Error (String × String) :=
  match entry with
  | (selector, .string name) => .ok (selector, name)
  | (selector, other) => .error (.validation
      s!"rename: new name for '{selector}' must be a string, got {other.json}")

/-- a renaming: every parameter with a name of its own is a selector and its new name -/
def buildRename (params : Fields) : Except Error Step := do
  let input ← Params.selectors params "input"
  let output ← Params.selectors params "output"
  let names ← (Fields.without params ["input", "output", "where", "where_params"]).mapM newName
  if names.isEmpty && (input.isEmpty || output.isEmpty) then
    throw (.validation
      "rename requires 'input' and 'output', or a mapping of column to new name")
  return rename input output names

/-- a choice of the first rows -/
def buildSelectHead (params : Fields) : Except Error Step :=
  match (Fields.find? "n" params).bind Value.natural? with
  | some count => .ok (selectHead count)
  | none => .error (.validation "select.head requires a whole number 'n'")

/-- a choice of rows -/
def buildFilter (params : Fields) : Except Error Step := do
  let condition ← match Fields.find? "where" params with
    | some (.string text) => some <$> Condition.read text
    | some other =>
      throw (.validation s!"filter: 'where' must be a string, got {other.json}")
    | none => pure none
  let test := CellTest.ofParams? params
  let input ← Params.selectors params "input"
  if test.isSome && input.isEmpty then
    throw (.validation "filter requires 'input' with a column test")
  if condition.isNone && test.isNone then
    throw (.validation "filter requires 'where' or one of equal, not_equal, contains, is_in")
  return filter condition ((Fields.find? "where_params" params).getD .null) input test

/-- a joining of texts, with a blank between them unless told otherwise -/
def buildMergeConcatenate (params : Fields) : Except Error Step := do
  let input ← inputOf params "merge.concatenate"
  match ← Params.selectors params "output" with
  | [output] =>
    let separator ←
      if Fields.has params "char" then Params.text params "char" "merge.concatenate"
      else pure " "
    return mergeConcatenate input output separator
  | _ => throw (.ambiguousOutput "merge.concatenate writes exactly one 'output' column")

/-- where a remote call goes -/
def requestOf (params : Fields) (step : String) : Except Error Request := do
  let url ← Params.text params "url" step
  let query ← Params.texts params "params" step
  let headers ← Params.texts params "headers" step
  return { url, query, headers }

/-- a remote call for many rows at a time -/
def buildRequestBatch (params : Fields) : Except Error Step := do
  let (input, output) ← inputAndOutput params "request.batch"
  let size := ((Fields.find? "batch_size" params).bind Value.natural?).map (max 1)
  return requestBatch (← requestOf params "request.batch") input output size

/-- a remote call for every row -/
def buildRequestRow (params : Fields) : Except Error Step := do
  let (input, output) ← inputAndOutput params "request.row"
  return requestRow (← requestOf params "request.row") input output

/-- the step of a kind with given parameters -/
def build (kind : StepKind) (params : Value) : Except Error Step := do
  let params ← Params.ofValue kind.name params
  match kind with
  | .convertCase => buildConvertCase params
  | .convertType => buildConvertType params
  | .copy =>
    let (input, output) ← inputAndOutput params "copy"
    return copy input output
  | .drop => buildDrop params
  | .rename => buildRename params
  | .selectColumns => return selectColumns (← inputOf params "select.columns")
  | .selectHead => buildSelectHead params
  | .reindex => return reindex
  | .filter => buildFilter params
  | .mergeConcatenate => buildMergeConcatenate params
  | .requestBatch => buildRequestBatch params
  | .requestRow => buildRequestRow params

/-- the kind of a step -/
def kind : Step → StepKind
  | convertCase .. => .convertCase
  | convertType .. => .convertType
  | copy .. => .copy
  | drop .. => .drop
  | rename .. => .rename
  | selectColumns .. => .selectColumns
  | selectHead .. => .selectHead
  | reindex => .reindex
  | filter .. => .filter
  | mergeConcatenate .. => .mergeConcatenate
  | requestBatch .. => .requestBatch
  | requestRow .. => .requestRow

/-- the step of a name with given parameters, among the steps known -/
def named (steps : List (String × StepKind)) (name : String) (params : Value) :
    Except Error Step := do
  build (← StepKind.find steps name) params

end Step

end TableRecipe
