import TableRecipe.Selector.Basic

/-!
# Parameters of steps

* `Params.ofValue` — the parameters of a step;
* `Params.selectors`, `Params.text`, `Params.texts` — a parameter of a certain form;
* `Params.pairs` — the input columns of a step, each with the column that takes its result.
-/

namespace TableRecipe.Params

/-- the parameters of a step: a mapping, or none -/
def ofValue (step : String) : Value → Except Error Fields
  | .object params => .ok params
  | .null => .ok []
  | _ => .error (.validation s!"{step} parameters must be a mapping")

/-- the selectors in a parameter, none if it is missing -/
def selectors (params : Fields) (name : String) : Except Error (List String) :=
  match Fields.find? name params with
  | some value => Selector.ofValue value
  | none => .ok []

/-- a parameter that must be there and be a text or a number -/
def text (params : Fields) (name step : String) : Except Error String :=
  match Fields.find? name params with
  | some (.string text) => .ok text
  | some (.number number) => .ok (String.ofList number.text)
  | some other => .error (.validation s!"{step}: '{name}' must be a string, got {other.json}")
  | none => .error (.validation s!"{step} requires '{name}'")

/-- the entries of a parameter that is a mapping, as texts; none if it is missing -/
def texts (params : Fields) (name step : String) : Except Error (List (String × String)) :=
  match Fields.find? name params with
  | none | some .null => .ok []
  | some (.object entries) => .ok (entries.map fun (entry, value) => (entry, value.text))
  | some other => .error (.validation s!"{step}: '{name}' must be a mapping, got {other.json}")

/-- the columns that the input of a step selects, each with the output column for it; without
output columns every column takes its own result -/
def pairs (columns input output : List String) (step : String) :
    Except Error (List (String × String)) := do
  let inputs ← Selector.expand columns input
  if output.isEmpty then return inputs.map fun column => (column, column)
  if inputs.length ≠ output.length then
    throw (.ambiguousOutput
      (s!"{step} was given {inputs.length} input column(s) {Quoted.list inputs} "
        ++ s!"and {output.length} output column(s) {Quoted.list output}"))
  return inputs.zip output

end TableRecipe.Params
