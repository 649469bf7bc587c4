import TableRecipe.Matrix
import TableRecipe.Placeholder.Recipe
import TableRecipe.Recipe.Section
import TableRecipe.Recipe.Source

/-!
# Tasks

Recipes contain recipes, and matrices contain sections of recipes. What contains a part of a
recipe asks for it as a task, and does not say how deep it lies.

* `Report` — the summary of a run;
* `Task` — a part of a recipe that another part asks for;
* `Runner` — a way to carry out tasks;
* `Recipe.nested` — a recipe as an entry of another;
* `Recipe.eachBinding` — a part of a recipe, repeated by a matrix.
-/

namespace TableRecipe

/-- the summary of the run of a recipe -/
structure Report where
  /-- how many rows were read -/
  rowsRead : Nat := 0
  /-- how many rows were returned -/
  rowsReturned : Nat := 0
  /-- the steps that were applied, in order -/
  steps : List String := []
  /-- how many entries wrote -/
  writes : Nat := 0
  deriving DecidableEq, Repr, Inhabited

/-- a part of a recipe, by what it comes to -/
inductive Task : Type → Type where
  /-- a recipe with variables of its own, and a table for it if it reads none -/
  | recipe (source : Recipe.Source) (given : Fields) (table : Option Table) :
      Task (Table × Report)
  /-- a section that reads, and the table if it reads none -/
  | read (body : Value) (table : Option Table) (bindings : Fields) : Task Table
  /-- an entry of a section that reads -/
  | readEntry (entry : Value) (table : Option Table) (bindings : Fields) : Task Table
  /-- a section of steps: the table after them, and the steps that were applied -/
  | steps (body : Value) (table : Table) (bindings : Fields) : Task (Table × List String)
  /-- a section that writes: the table that it returns, and how many entries wrote -/
  | write (body : Value) (table : Table) (bindings : Fields) : Task (Table × Nat)
  /-- the actions of a hook, without a table -/
  | act (actions : Value) (bindings : Fields) : Task Unit

/-- a way to carry out tasks -/
abbrev Runner := {α : Type} → Task α → Engine α

namespace Recipe

/-! ## Recipes in recipes -/

/-- the recipe that an entry names or holds -/
def nestedSource (params : Fields) : Except Error Source :=
  match (Fields.find? "name" params).or (Fields.find? "recipe" params) with
  | none => .error (.validation "recipe requires 'name'")
  | some (.string text) => .ok (.text text)
  | some (.object document) => .ok (.document (.object document))
  | some other => .error (.validation
      s!"recipe 'name' must be a string or a mapping, got {other.json}")

/-- the variables that an entry passes to a recipe -/
def nestedVariables (params : Fields) : Except Error Fields :=
  match Fields.find? "variables" params with
  | none | some .null => .ok []
  | some (.object given) => .ok given
  | some other => .error (.validation
      s!"recipe 'variables' must be a mapping, got {other.json}")

/-- runs the recipe of an entry: it sees the variables of the entry alone -/
def nested (run : Runner) (params : Fields) (table : Option Table) : Engine Table := do
  let source ← Engine.ofExcept (nestedSource params)
  let given ← Engine.ofExcept (nestedVariables params)
  let (result, _) ← run (.recipe source given table)
  return result

/-! ## Parts of recipes in matrices -/

/-- the part of a recipe that a matrix repeats, a parameter of it -/
def matrixBody (params : Fields) (name activity : String) : Except Error Value :=
  match Fields.find? name params with
  | some body => .ok body
  | none => .error (.validation s!"a {activity} matrix requires '{name}'")

/-- a section with its placeholders replaced -/
def resolved (body : Value) (bindings : Fields) : Engine Value :=
  Engine.ofExcept (Placeholder.resolveSteps Placeholder.readDocument bindings body)

/-- does a job for every binding that a matrix stands for, over the bindings around it; the job
is given the body of the matrix with its placeholders replaced -/
def eachBinding (params : Fields) (table : Option Table) (bindings : Fields) (body : Value)
    (job : Value → Fields → Engine α) : Engine (List α) := do
  Engine.each (← Matrix.bindings params table) fun binding => do
    let bindings := Fields.extend bindings binding
    job (← resolved body bindings) bindings

end Recipe

end TableRecipe
