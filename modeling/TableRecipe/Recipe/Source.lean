import TableRecipe.Engine
import TableRecipe.Yaml.Printer

/-!
# Obtaining recipes

A recipe is given as a document or as a text. A text of one line may be the id of a model, an
address or the path of a file that holds the recipe; any other text is the recipe itself.

* `Recipe.Source` — a recipe as it is given;
* `Recipe.isModelId` — whether a text is the id of a model;
* `Recipe.normalize` — a document as a recipe;
* `Recipe.load` — the recipe that is given.
-/

namespace TableRecipe.Recipe

/-- a recipe as it is given -/
inductive Source where
  /-- a text that is the recipe, or says where it is -/
  | text (text : String)
  /-- the recipe itself -/
  | document (document : Value)
  deriving DecidableEq, Repr, Inhabited

/-- whether so many letters and digits precede a hyphen, or the end -/
def isIdPart (length : Nat) (part : List Char) : Bool :=
  part.length = length && part.all fun c => Letter.isAsciiLetter c || Letter.isAsciiDigit c

/-- whether a text is the id of a model, as in `XXXXXXXX-XXXX-XXXX`, between blanks -/
def isModelId (text : String) : Bool :=
  match Split.on '-' (Split.trim text.toList) with
  | [first, second, third] => isIdPart 8 first && isIdPart 4 second && isIdPart 4 third
  | _ => false

/-- a document as a recipe: a mapping, whose section `wrangle` is renamed to `wrangles` -/
def normalize : Value → Except Error Value
  | .object recipe =>
    match Fields.find? "wrangle" recipe with
    | none => .ok (.object recipe)
    | some steps =>
      let others := Fields.swapRemove recipe "wrangle"
      if Fields.has others "wrangles" then
        .error (.recipeLoad "a recipe cannot have both 'wrangle' and 'wrangles'")
      else .ok (.object (Fields.insert "wrangles" steps others))
  | .null => .ok (.object [])
  | .string text =>
    .error (.recipeLoad s!"'{text}' is not a recipe, a known file or a URL")
  | other => .error (.recipeLoad s!"a recipe must be a mapping, got {other.json}")

/-- the recipe that a text writes -/
def parse (text : String) : Except Error Value :=
  match Yaml.read? text with
  | some document => normalize document
  | none => .error (.recipeLoad "invalid recipe document: ")

/-- the text of the recipe of a model -/
def fetchModel (id : String) : Engine String := do
  match (← read).models with
  | none => throw (.recipeLoad
      s!"'{id}' looks like a model id but no model source is configured")
  | some models =>
    Engine.record (.model id)
    Engine.ofExcept (models id)

/-- the text of the recipe at an address -/
def fetchPage (url : String) : Engine String := do
  match ← Engine.page url with
  | .error message => throw (.recipeLoad s!"{url}: {message}")
  | .ok response =>
    if response.isSuccess then return response.body
    else throw (.recipeLoad s!"{url} returned {response.status} {response.reason}")

/-- the text of the recipe in a file -/
def fetchFile (path : String) : Engine String := do
  match (← Engine.files).readText? path with
  | .ok text => return text
  | .error failure => throw (.recipeLoad s!"{path}: {failure.message}")

/-- whether a text is an address -/
def isAddress (text : String) : Bool :=
  text.startsWith "http://" || text.startsWith "https://"

/-- the text of a recipe, given by a text that is the recipe or says where it is -/
def textOf (text : String) : Engine String := do
  let trimmed := Split.trimText text
  if text.toList.contains '\n' then return text
  else if isModelId trimmed then fetchModel trimmed
  else if isAddress trimmed then fetchPage trimmed
  else if (← Engine.files).isFile trimmed then fetchFile trimmed
  else return text

/-- the recipe that is given -/
def load : Source → Engine Value
  | .document document => Engine.ofExcept (normalize document)
  | .text text => do Engine.ofExcept (parse (← textOf text))

end TableRecipe.Recipe
