import TableRecipe.Placeholder.Basic
import TableRecipe.Yaml.Printer

/-!
# Placeholders in recipes

What is bound only later, by a matrix or for a nested recipe, stays as it is until then.

* `Placeholder.readDocument` — lists and mappings in writing, as recipes use them;
* `Placeholder.resolveSteps` — the entries of a section;
* `Placeholder.resolveRecipe` — a whole recipe.
-/

namespace TableRecipe.Placeholder

/-- the list or mapping that a document holds -/
def readDocument : Reading := fun text =>
  match Yaml.read? text with
  | some (.list items) => some (.list items)
  | some (.object entries) => some (.object entries)
  | _ => none

/-- the entries whose parameters are resolved again when they run -/
def deferred : List String := ["matrix", "recipe"]

/-- the entries that combine several sources, which are entries themselves -/
def combined : List String := ["join", "union", "concatenate"]

/-- the sections of a recipe that hold entries -/
def sections : List String := ["read", "wrangles", "wrangle", "write"]

mutual
/-- the entries of a section, given how to resolve what must be known and what need not be -/
def resolveEntries (strict tolerant : Value → Except Error Value) : Value → Except Error Value
  | .list items => return .list (← resolveItems strict tolerant items)
  | .object entries => return .object (← resolveParams strict tolerant entries)
  | .string text => strict (.string text)
  | .null => strict .null
  | .bool flag => strict (.bool flag)
  | .number n => strict (.number n)
/-- a list of entries -/
def resolveItems (strict tolerant : Value → Except Error Value) :
    List Value → Except Error (List Value)
  | [] => return []
  | item :: rest =>
    return (← resolveEntries strict tolerant item) :: (← resolveItems strict tolerant rest)
/-- entries with their parameters -/
def resolveParams (strict tolerant : Value → Except Error Value) :
    List (String × Value) → Except Error (List (String × Value))
  | [] => return []
  | (key, params) :: rest => do
    let resolved ←
      if deferred.contains key then tolerant params
      else if combined.contains key then resolveCombined strict tolerant params
      else strict params
    return (key, resolved) :: (← resolveParams strict tolerant rest)
/-- the parameters of an entry that combines sources -/
def resolveCombined (strict tolerant : Value → Except Error Value) :
    Value → Except Error Value
  | .object params => return .object (← resolveSources strict tolerant params)
  | .list items => strict (.list items)
  | .string text => strict (.string text)
  | .null => strict .null
  | .bool flag => strict (.bool flag)
  | .number n => strict (.number n)
/-- the parameters of an entry that combines sources, one by one -/
def resolveSources (strict tolerant : Value → Except Error Value) :
    List (String × Value) → Except Error (List (String × Value))
  | [] => return []
  | (key, value) :: rest => do
    let resolved ←
      if key = "sources" then resolveEntries strict tolerant value else strict value
    return (key, resolved) :: (← resolveSources strict tolerant rest)
end

/-- the entries of a section with their placeholders replaced -/
def resolveSteps (reading : Reading) (bindings : Fields) : Value → Except Error Value :=
  resolveEntries (resolve reading bindings false) (resolve reading bindings true)

/-- a section of a recipe with its placeholders replaced: hooks are resolved again when they run -/
def resolveSection (reading : Reading) (bindings : Fields) (name : String) (body : Value) :
    Except Error Value :=
  if name = "run" then resolve reading bindings true body
  else if sections.contains name then resolveSteps reading bindings body
  else resolve reading bindings false body

/-- a recipe with its placeholders replaced -/
def resolveRecipe (reading : Reading) (bindings : Fields) : Value → Except Error Value
  | .object recipe => do
    let resolved ← recipe.mapM fun (name, body) =>
      return (name, ← resolveSection reading bindings name body)
    return .object resolved
  | other => resolve reading bindings false other

end TableRecipe.Placeholder
