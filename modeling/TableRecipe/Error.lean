import TableRecipe.Text.Quoted

/-!
# Errors

A failure has a cause, and once it leaves the step that raised it also a place and a hint for
mending the recipe.

* `Cause` — what went wrong, with its wording in `Cause.message`;
* `Cause.hint` — what the author of the recipe may do about it;
* `Error` — a cause with its place and hint; `Error.enrich` adds them once, so that of nested
  places the innermost is kept.
-/

namespace TableRecipe

/-- what went wrong -/
inductive Cause where
  /-- a placeholder names a variable that has no value -/
  | unknownVariable (name : String)
  /-- a selector that is not optional matched no column -/
  | unknownColumn (column : String)
  /-- inputs and outputs cannot be paired -/
  | ambiguousOutput (message : String)
  /-- the last attempt of a remote call did not get through -/
  | transport (url message : String)
  /-- the last attempt of a remote call met a failing server -/
  | noResponse (url : String) (attempts : Nat)
  /-- a remote service refused a call -/
  | remoteRefusal (status : Nat) (reason body : String)
  /-- a remote service answered in an unknown form -/
  | unexpectedResponse (message : String)
  /-- a custom function returned what it must not -/
  | contractViolation (function message : String)
  /-- a step or connector cannot be used this way -/
  | unsupported (message : String)
  /-- no step has this name -/
  | unknownStep (name : String)
  /-- no connector has this name -/
  | unknownConnector (name : String)
  /-- no custom function has this name -/
  | unknownFunction (name : String)
  /-- malformed parameters -/
  | validation (message : String)
  /-- a recipe could not be obtained or read -/
  | recipeLoad (message : String)
  /-- a condition could not be read -/
  | conditionSyntax (message : String)
  /-- the file system refused -/
  | fileSystem (message : String)
  /-- a document could not be read -/
  | document (message : String)
  /-- an unforeseen situation -/
  | internal (message : String)
  /-- a number left the 64 bits it is computed in: the run stops there and then -/
  | overflow
  /-- recipes nest deeper than they may: the run stops there and then -/
  | nesting
  deriving DecidableEq, Repr, Inhabited

namespace Cause

/-- the wording of a cause -/
def message : Cause → String
  | unknownVariable name => s!"variable '{name}' is not defined"
  | unknownColumn column => s!"column '{column}' does not exist"
  | ambiguousOutput message => s!"ambiguous output: {message}"
  | transport url message => s!"transport error calling '{url}': {message}"
  | noResponse url attempts =>
    s!"no successful response from '{url}' after {attempts} attempt(s)"
  | remoteRefusal status reason body =>
    s!"remote call failed with status {status} {reason}: {body}"
  | unexpectedResponse message => s!"unexpected response format: {message}"
  | contractViolation function message =>
    s!"custom function '{function}' violated its contract: {message}"
  | unsupported message => s!"unsupported operation: {message}"
  | unknownStep name => s!"unknown wrangle '{name}'"
  | unknownConnector name => s!"unknown connector '{name}'"
  | unknownFunction name => s!"custom function '{name}' is not registered"
  | validation message => s!"validation error: {message}"
  | recipeLoad message => s!"unable to load recipe: {message}"
  | conditionSyntax message => s!"invalid where clause: {message}"
  | fileSystem message => s!"io error: {message}"
  | document message => s!"serialization error: {message}"
  | internal message => s!"internal error: {message}"
  | overflow => "arithmetic overflow"
  | nesting => "recipes nest too deeply"

/-- whether the cause stops the run, so that no part of the run can go on after it -/
def stopsRun : Cause → Bool
  | overflow | nesting => true
  | _ => false

/-- what the author of a recipe may do about a cause met in the step `step` -/
def hint (cause : Cause) (step : String) : String :=
  match cause with
  | unknownVariable name =>
    s!"Define '{name}' in the variables passed to the recipe or in the environment, "
      ++ s!"or check the spelling of the $\x7b{name}\x7d placeholder."
  | unknownColumn column =>
    s!"Check that the column '{column}' exists at this point in the recipe. "
      ++ s!"Column names are case-sensitive; append '?' to make a selector optional."
  | ambiguousOutput _ =>
    s!"Check the format of the parameters for '{step}'. When both input and output "
      ++ s!"are given as lists they must have the same length, "
      ++ s!"e.g. input: [col1, col2] with output: [col1_out, col2_out]."
  | validation _ => s!"Check the parameters given to '{step}' and their types."
  | transport _ _ | noResponse _ _ =>
    "Check your network connection and that the remote service is reachable, then retry."
  | remoteRefusal status _ _ =>
    if status = 401 || status = 403 then
      "Check that your credentials are valid and permitted to use this service."
    else s!"The remote service rejected the request from '{step}'. Check the parameters sent."
  | unexpectedResponse _ =>
    "The remote service returned an unrecognised payload. Check the endpoint URL."
  | contractViolation function _ =>
    s!"A custom function that accepts 'df' must return a dataset. "
      ++ s!"Check the return value of '{function}'."
  | unsupported _ =>
    s!"Remove the 'where' parameter from '{step}' or apply a filter step beforehand."
  | unknownStep name =>
    s!"'{name}' is not a known wrangle. Custom functions must be referenced as custom.<name>."
  | unknownFunction name => s!"Register a function named '{name}' before running the recipe."
  | conditionSyntax _ =>
    "Check the syntax of the where clause, e.g. where: \"col1 = 'value' AND col2 > 3\"."
  | unknownConnector _ | recipeLoad _ | fileSystem _ | document _ | internal _ | overflow
  | nesting =>
    s!"Check the configuration of '{step}'."

end Cause

/-- a failure -/
structure Error where
  /-- what went wrong -/
  cause : Cause
  /-- where in the recipe -/
  location : Option String := none
  /-- how to mend the recipe -/
  suggestion : Option String := none
  deriving DecidableEq, Repr, Inhabited

namespace Error

/-- whether a place and a hint were added -/
def isEnriched (error : Error) : Bool := error.suggestion.isSome

/-- adds a place and a hint, unless the failure has them already -/
def enrich (error : Error) (location suggestion : String) : Error :=
  if error.isEnriched then error
  else { error with location := some location, suggestion := some suggestion }

/-- adds the place of a step and the hint for its cause -/
def locate (error : Error) (location step : String) : Error :=
  error.enrich location (error.cause.hint step)

/-- the text of a failure: its place, its cause, its hint -/
def text (error : Error) : String :=
  (match error.location with | some location => location ++ ": " | none => "")
    ++ error.cause.message
    ++ (match error.suggestion with
      | some suggestion => "\nSuggestion: " ++ suggestion
      | none => "")

/-- a failure without a place -/
def of (cause : Cause) : Error := { cause }

/-- malformed parameters -/
def validation (message : String) : Error := of (.validation message)

/-- a column that is missing -/
def unknownColumn (column : String) : Error := of (.unknownColumn column)

/-- a step or connector used in a way it does not support -/
def unsupported (message : String) : Error := of (.unsupported message)

/-- inputs and outputs that cannot be paired -/
def ambiguousOutput (message : String) : Error := of (.ambiguousOutput message)

/-- a remote answer in an unknown form -/
def unexpectedResponse (message : String) : Error := of (.unexpectedResponse message)

/-- a custom function that broke its contract -/
def contractViolation (function message : String) : Error :=
  of (.contractViolation function message)

/-- a recipe that cannot be obtained or read -/
def recipeLoad (message : String) : Error := of (.recipeLoad message)

/-- a condition that cannot be read -/
def conditionSyntax (message : String) : Error := of (.conditionSyntax message)

end Error

end TableRecipe
