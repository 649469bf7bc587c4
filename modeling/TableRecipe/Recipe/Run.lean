import TableRecipe.Recipe.Hook
import TableRecipe.Recipe.Read
import TableRecipe.Recipe.Wrangle
import TableRecipe.Recipe.Write

/-!
# Runs of recipes

A run goes through its stages: actions at the start, reading, steps, writing, actions after
success. If one fails, the actions after a failure follow, and the failure is that of the run.

* `Recipe.stages` — the stages of a run;
* `Recipe.execute` — a recipe under bindings;
* `Task.perform` — a task, carried out to a given depth;
* `Recipe.run` — the run of a recipe.
-/

namespace TableRecipe

namespace Recipe

/-- a section of a recipe, null if it has none -/
def sectionOf (recipe : Fields) (name : String) : Value :=
  (Fields.find? name recipe).getD .null

/-- the stages of a run -/
def stages (run : Runner) (recipe bindings : Fields) (table : Option Table) :
    Engine (Table × Report) := do
  runHooks run recipe "on_start" bindings
  let source ← readSection run (sectionOf recipe "read") table bindings
  let (changed, steps) ← applySteps run (sectionOf recipe "wrangles") source bindings
  let (result, writes) ← writeSection run (sectionOf recipe "write") changed bindings
  runHooks run recipe "on_success" bindings
  return (result,
    { rowsRead := source.length, rowsReturned := result.length, steps, writes })

/-- the sections of a recipe with their placeholders replaced -/
def resolve (document : Value) (bindings : Fields) : Except Error Fields := do
  match Placeholder.resolveRecipe Placeholder.readDocument bindings document with
  | .error error => throw (error.locate "recipe" "recipe")
  | .ok (.object recipe) => return recipe
  | .ok _ => throw (.recipeLoad "a recipe must be a mapping")

/-- runs a recipe under bindings -/
def execute (run : Runner) (document : Value) (bindings : Fields) (table : Option Table) :
    Engine (Table × Report) := do
  let recipe ← Engine.ofExcept (resolve document bindings)
  match ← (stages run recipe bindings table).attempt with
  | .ok result => return result
  | .error error =>
    runFailureHooks run recipe bindings error
    throw error

/-- the bindings of a run: the variables of the environment, if they are wanted, and over them
those given -/
def bindingsOf (given : Fields) : Engine Fields := do
  let context ← read
  let surroundings := if context.settings.includeEnvironment then
      Fields.ofPairs (context.environment.map fun (name, text) => (name, .string text))
    else []
  return Fields.extend surroundings given

/-- obtains a recipe and runs it -/
def obtainAndExecute (run : Runner) (source : Source) (given : Fields)
    (table : Option Table) : Engine (Table × Report) := do
  let document ← load source
  execute run document (← bindingsOf given) table

end Recipe

namespace Task

/-- carries out a task, given a way to carry out those that it contains -/
def performWith (run : Runner) : Task α → Engine α
  | recipe source given table => Recipe.obtainAndExecute run source given table
  | read body table bindings => Recipe.readSection run body table bindings
  | readEntry entry table bindings => Recipe.readEntry run entry table bindings
  | steps body table bindings => Recipe.applySteps run body table bindings
  | write body table bindings => Recipe.writeSection run body table bindings
  | act actions bindings => Recipe.actAll run actions bindings

/-- carries out a task that contains others to the given depth at most -/
def perform : (depth : Nat) → Task α → Engine α
  | 0, _ => throw (.of .nesting)
  | depth + 1, task => performWith (perform depth) task

end Task

namespace Recipe

/-- how deep the parts of a recipe may lie in each other -/
def maximalDepth : Nat := 1000

/-- runs a recipe. The table given is the one that it starts from if it reads none. -/
def run (source : Source) (given : Fields) (table : Option Table) :
    Engine (Table × Report) :=
  Task.perform maximalDepth (.recipe source given table)

end Recipe

end TableRecipe
