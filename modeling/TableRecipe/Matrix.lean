import TableRecipe.CustomFunction.Invoke

/-!
# Matrices

A matrix repeats a part of a recipe for several bindings of its variables. Each variable has a
list of candidates; a strategy combines them.

* `Matrix.Strategy` — in step, or every choice with every other;
* `Matrix.candidates` — the candidates that a value stands for;
* `Matrix.combine` — the bindings for lists of candidates;
* `Matrix.bindings` — the bindings that the parameters of a matrix stand for.
-/

namespace TableRecipe.Matrix

/-- how candidates of several variables are combined -/
inductive Strategy where
  /-- the candidates at one place after the other, shorter lists starting again -/
  | loop
  /-- every choice, the first variable changing last -/
  | permutations
  deriving DecidableEq, Repr, Inhabited

namespace Strategy

/-- the strategy that a parameter names, in any ASCII case; in step if it is missing -/
def ofValue? : Option Value → Except Error Strategy
  | none | some .null => .ok loop
  | some (.string word) =>
    match word.map Char.toLower with
    | "loop" => .ok loop
    | "permutations" => .ok permutations
    | other => .error (.validation
        s!"matrix strategy must be 'loop' or 'permutations', got '{other}'")
  | some other => .error (.validation s!"matrix strategy must be a string, got {other.json}")

end Strategy

/-! ## Candidates -/

/-- an expression that stands for candidates -/
inductive Source where
  /-- the distinct values of a column -/
  | set (column : String)
  /-- the entries of a directory -/
  | directory (path : String)
  deriving DecidableEq, Repr

/-- a text without the quotation marks around it -/
def unquote (cs : List Char) : List Char :=
  let isMark := fun c => c = '"' || c = '\''
  ((cs.dropWhile isMark).reverse.dropWhile isMark).reverse

/-- the argument of an expression after its opening parenthesis: it stands on one line, and
nothing but blanks follows the closing one -/
def argument? (cs : List Char) : Option String :=
  match (Split.trimEnd cs).reverse with
  | ')' :: body =>
    if body.contains '\n' then none
    else some (String.ofList (unquote (Split.trim body.reverse)))
  | _ => none

/-- the expression that a text writes, if it is one -/
def source? (text : String) : Option Source :=
  let body := Split.trimStart text.toList
  match Split.after? "set(".toList body, Split.after? "dir(".toList body with
  | some rest, _ => (argument? rest).map .set
  | none, some rest => (argument? rest).map .directory
  | none, none => none

/-- the entries of a directory, as paths -/
def entries (path : String) : Engine (List Value) := do
  let names ← Engine.ofFiles ((← Engine.files).list? path)
  return names.map fun name => .string (FilePath.join path name)

/-- the candidates that a text stands for -/
def candidatesOfText (text : String) (table : Option Table) : Engine (List Value) := do
  match source? text with
  | some (.set column) =>
    match table with
    | some table => Engine.ofExcept (table.uniqueValues column)
    | none => throw (.validation s!"'{text}' needs a dataset to draw values from")
  | some (.directory path) => entries path
  | none =>
    match CustomFunction.reference? text with
    | some name =>
      match ← (← Engine.function name).callAlone [] with
      | .list items => return items
      | other => return [other]
    | none => return [.string text]

/-- the candidates that a value stands for: a list stands for its items, a text may be an
expression, any other value stands for itself -/
def candidates (table : Option Table) : Value → Engine (List Value)
  | .list items => return items
  | .string text => candidatesOfText text table
  | other => return [other]

/-! ## Bindings -/

/-- the bindings of variables to the candidates at one place, shorter lists starting again -/
def bindingAt (choices : List (String × List Value)) (place : Nat) : Fields :=
  Fields.ofPairs (choices.map fun (name, values) =>
    (name, (values[place % values.length]?).getD .null))

/-- the bindings for lists of candidates, none if one of the lists is empty -/
def combine (choices : List (String × List Value)) (strategy : Strategy) : List Fields :=
  if choices.isEmpty || choices.any (·.2.isEmpty) then []
  else match strategy with
    | .loop =>
      let longest := choices.foldl (fun longest (_, values) => max longest values.length) 0
      (List.range longest).map (bindingAt choices)
    | .permutations =>
      choices.foldl (fun bindings (name, values) =>
        bindings.flatMap fun binding => values.map fun value =>
          Fields.insert name value binding) [[]]

/-- the bindings that variables and a strategy stand for -/
def expand (expressions : Fields) (strategy : Strategy) (table : Option Table) :
    Engine (List Fields) := do
  let lists ← expressions.mapM fun (name, value) => return (name, ← candidates table value)
  return combine lists strategy

/-- the bindings that the parameters of a matrix stand for -/
def bindings (params : Fields) (table : Option Table) : Engine (List Fields) := do
  match Fields.find? "variables" params with
  | some (.object expressions) =>
    let strategy ← Engine.ofExcept (Strategy.ofValue? (Fields.find? "strategy" params))
    expand expressions strategy table
  | _ => throw (.validation "a matrix requires a 'variables' mapping")

end TableRecipe.Matrix
