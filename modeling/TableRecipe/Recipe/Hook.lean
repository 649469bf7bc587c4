import TableRecipe.Connector.Use
import TableRecipe.Recipe.Task

/-!
# Hooks

The actions that a recipe runs at its start, after its success or after its failure.

* `Recipe.act` — an action;
* `Recipe.actAll` — the actions of a matrix;
* `Recipe.runHooks` — the actions of a phase: a failing one ends the run;
* `Recipe.runFailureHooks` — the actions after a failure: a failing one is passed over.
-/

namespace TableRecipe.Recipe

/-- runs an action of the name `key` -/
def act (run : Runner) (key : String) (params : Value) (bindings : Fields) : Engine Unit := do
  let params ← Engine.ofExcept (Params.ofValue key params)
  match key with
  | "matrix" =>
    let body ← Engine.ofExcept (matrixBody params "run" "run")
    let _ ← eachBinding params none bindings body fun body bindings => run (.act body bindings)
  | "recipe" =>
    let _ ← nested run params none
  | _ =>
    match CustomFunction.reference? key with
    | some name =>
      let _ ← (← Engine.function name).callAlone params
    | none => (← Engine.connector key).act params

/-- runs the actions that a matrix repeats, one after the other -/
def actAll (run : Runner) (actions : Value) (bindings : Fields) : Engine Unit := do
  for action in ← Engine.ofExcept (entries "run" actions) do
    let (key, params) ← Engine.ofExcept (keyAndParams "run" action)
    act run key params bindings

/-- runs an action of a phase -/
def runHook (run : Runner) (phase : String) (bindings : Fields) (action : Value) :
    Engine Unit := do
  let (key, params) ← Engine.ofExcept (keyAndParams phase action)
  Engine.locating s!"{phase} ({key})" key (act run key params bindings)

/-- the actions of a phase -/
def hooks (recipe : Fields) (phase : String) (bindings : Fields) : Engine (List Value) := do
  match (Fields.find? "run" recipe).bind (Value.field? phase) with
  | none => return []
  | some actions => Engine.ofExcept (entries phase (← (resolved actions bindings)))

/-- runs the actions of a phase, one after the other -/
def runHooks (run : Runner) (recipe : Fields) (phase : String) (bindings : Fields) :
    Engine Unit := do
  for action in ← hooks recipe phase bindings do
    runHook run phase bindings action

/-- runs the actions after a failure. The text of the failure is bound to `error`. An action that
fails is passed over; if one has an unknown placeholder, then all of them are. -/
def runFailureHooks (run : Runner) (recipe : Fields) (bindings : Fields) (error : Error) :
    Engine Unit := do
  let bindings := Fields.insert "error" (.string error.text) bindings
  match ← (hooks recipe "on_failure" bindings).attempt with
  | .error _ => return
  | .ok actions =>
    for action in actions do
      let _ ← (runHook run "on_failure" bindings action).attempt

end TableRecipe.Recipe
