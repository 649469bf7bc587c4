import TableRecipe.Settings
import TableRecipe.FileSystem
import TableRecipe.Remote.Exchange
import TableRecipe.CustomFunction.Basic
import TableRecipe.Connector.Basic
import TableRecipe.Step.Kind

/-!
# Engines

A run calls upon its surroundings: functions and connectors of the host program, remote services,
files. An engine is a part of a run: it may fail, and what it did before it failed has happened.

* `Effect` — what a run did to its surroundings;
* `World` — the files, and all effects so far in their order;
* `Context` — what a run may call upon, the same for all of its parts;
* `Engine` — a part of a run;
* `Engine.attempt` — a part of a run whose failure does not end the run;
* `Engine.each` — jobs that all run, even if one of them fails.
-/

namespace TableRecipe

/-- what a run did to its surroundings -/
inductive Effect where
  /-- called a custom function -/
  | call (function : String) (arguments : Fields) (table : Option Table)
  /-- sent a value to a remote service, which may take so many milliseconds -/
  | post (request : Request) (payload : Value) (limit : Nat)
  /-- asked a remote service for a page, which may take so many milliseconds -/
  | page (url : String) (limit : Nat)
  /-- waited for so many milliseconds -/
  | sleep (milliseconds : Nat)
  /-- asked for the recipe of a model -/
  | model (id : String)
  /-- read from a connector of the host program -/
  | read (connector : String) (params : Fields)
  /-- wrote to a connector of the host program -/
  | write (connector : String) (params : Fields) (table : Table)
  /-- ran an action of a connector of the host program -/
  | act (connector : String) (params : Fields)
  /-- wrote a line to the log -/
  | log (text : String)
  deriving DecidableEq, Repr, Inhabited

/-- what a run finds and changes -/
structure World where
  /-- the files below the working directory -/
  files : FileSystem := {}
  /-- how many values were sent to remote services -/
  posts : Nat := 0
  /-- how many random choices were made -/
  draws : Nat := 0
  /-- all effects so far, in order -/
  trace : List Effect := []
  deriving DecidableEq, Inhabited

/-- what a run may call upon -/
structure Context where
  /-- the settings -/
  settings : Settings := {}
  /-- the variables of the environment -/
  environment : List (String × String) := []
  /-- the functions of the host program -/
  functions : List CustomFunction := []
  /-- the built-in steps by name -/
  steps : List (String × StepKind) := StepKind.standard
  /-- the connectors by name -/
  connectors : List (String × Connector) := Connector.standard
  /-- the recipes of models by id, if there is a place to ask for them -/
  models : Option (String → Except Error String) := none
  /-- what comes back when a value is sent, given how many were sent before; the other case is a
  failure below the level of responses -/
  post : Nat → Request → Value → Except String Response := fun _ _ _ => .error "no service"
  /-- the page at an address -/
  page : String → Except String Response := fun _ => .error "no service"
  /-- the random choices -/
  random : Draws := Draws.least
  deriving Inhabited

/-- a part of a run -/
abbrev Engine := ReaderT Context (ExceptT Error (StateM World))

namespace Engine

/-- what a part of a run comes to, and the world after it -/
def runIn (engine : Engine α) (context : Context) (world : World) : Except Error α × World :=
  (engine.run context).run world

/-- notes an effect -/
def record (effect : Effect) : Engine Unit :=
  modify fun world => { world with trace := world.trace ++ [effect] }

/-- the result of a computation without effects -/
def ofExcept : Except Error α → Engine α
  | .ok a => pure a
  | .error error => throw error

/-- the outcome of a part of a run: a failure is an outcome, too, unless it stops the run -/
def attempt (engine : Engine α) : Engine (Except Error α) := fun context world =>
  match engine.runIn context world with
  | (.ok a, world) => (.ok (.ok a), world)
  | (.error error, world) =>
    if error.cause.stopsRun then (.error error, world) else (.ok (.error error), world)

/-- changes the failure of a part of a run -/
def mapError (change : Error → Error) (engine : Engine α) : Engine α := fun context world =>
  match engine.runIn context world with
  | (.ok a, world) => (.ok a, world)
  | (.error error, world) => (.error (change error), world)

/-- a part of a run whose failures tell the place of a step -/
def locating (location step : String) (engine : Engine α) : Engine α :=
  engine.mapError (·.locate location step)

/-- the outcomes of a job for every item, in order -/
def outcomes (job : α → Engine β) : List α → Engine (List (Except Error β))
  | [] => return []
  | item :: rest => return (← (job item).attempt) :: (← outcomes job rest)

/-- runs a job for every item, even if an earlier one failed; the first failure in order then is
that of the whole -/
def each (items : List α) (job : α → Engine β) : Engine (List β) := do
  (← outcomes job items).mapM ofExcept

/-! ## Calling upon the surroundings -/

/-- calls a custom function -/
def call (function : CustomFunction) (table : Option Table) (arguments : Fields) :
    Engine Output := do
  record (.call function.name arguments table)
  ofExcept (function.call table arguments)

/-- the custom function of a name -/
def function (name : String) : Engine CustomFunction := do
  ofExcept (CustomFunction.find (← read).functions name)

/-- the connector of a name -/
def connector (name : String) : Engine Connector := do
  ofExcept (Connector.find (← read).connectors name)

/-- the time limit of a remote call, in milliseconds -/
def timeLimit : Engine Nat := return (← read).settings.timeout * 1000

/-- sends a value to a remote service once -/
def post (request : Request) (payload : Value) : Engine (Except String Response) := do
  record (.post request payload (← timeLimit))
  let posts := (← get).posts
  modify fun world => { world with posts := posts + 1 }
  return (← read).post posts request payload

/-- asks for a page once -/
def page (url : String) : Engine (Except String Response) := do
  record (.page url (← timeLimit))
  return (← read).page url

/-- a random choice -/
def draw (choose : Draws → Nat → α) : Engine α := do
  let draws := (← get).draws
  modify fun world => { world with draws := draws + 1 }
  return choose (← read).random draws

/-- the result of an access to a file -/
def ofFiles : Except FileFailure α → Engine α
  | .ok a => pure a
  | .error failure => throw (.of (.fileSystem failure.message))

/-- the files -/
def files : Engine FileSystem := return (← get).files

/-- puts files in place of those that are there -/
def setFiles (files : FileSystem) : Engine Unit := modify fun world => { world with files }

end Engine

end TableRecipe
