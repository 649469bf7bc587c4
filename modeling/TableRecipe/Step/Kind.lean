import TableRecipe.Error

/-!
# The built-in steps

* `StepKind` — the built-in steps, with the names under which recipes find them;
* `StepKind.find` — the step of a name, among those known.
-/

namespace TableRecipe

/-- a built-in step -/
inductive StepKind where
  /-- changes the letter case of texts -/
  | convertCase
  /-- converts cells to a type -/
  | convertType
  /-- copies columns -/
  | copy
  /-- removes columns -/
  | drop
  /-- renames columns -/
  | rename
  /-- keeps columns -/
  | selectColumns
  /-- keeps the first rows -/
  | selectHead
  /-- labels the rows anew -/
  | reindex
  /-- keeps rows that satisfy a condition or a test -/
  | filter
  /-- joins the texts of columns -/
  | mergeConcatenate
  /-- sends a column to a remote service, many rows at a time -/
  | requestBatch
  /-- sends rows to a remote service, one at a time -/
  | requestRow
  deriving DecidableEq, Repr, Inhabited

namespace StepKind

/-- all built-in steps -/
def all : List StepKind :=
  [convertCase, convertType, copy, drop, rename, selectColumns, selectHead, reindex, filter,
    mergeConcatenate, requestBatch, requestRow]

/-- the name of a step -/
def name : StepKind → String
  | convertCase => "convert.case"
  | convertType => "convert.data_type"
  | copy => "copy"
  | drop => "drop"
  | rename => "rename"
  | selectColumns => "select.columns"
  | selectHead => "select.head"
  | reindex => "reindex"
  | filter => "filter"
  | mergeConcatenate => "merge.concatenate"
  | requestBatch => "request.batch"
  | requestRow => "request.row"

/-- the built-in steps under their names -/
def standard : List (String × StepKind) := all.map fun kind => (kind.name, kind)

/-- adds a name for a step to those known, in place of the same name -/
def register (steps : List (String × StepKind)) (name : String) (kind : StepKind) :
    List (String × StepKind) :=
  steps.filter (·.1 ≠ name) ++ [(name, kind)]

/-- the step of a name -/
def find (steps : List (String × StepKind)) (name : String) : Except Error StepKind :=
  match steps.lookup name with
  | some kind => .ok kind
  | none => .error (.of (.unknownStep name))

/-- whether a step evaluates a condition on rows by itself -/
def takesCondition : StepKind → Bool
  | filter => true
  | _ => false

end StepKind

end TableRecipe
