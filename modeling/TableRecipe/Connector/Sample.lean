import TableRecipe.Engine
import TableRecipe.Table.Edit

/-!
# Made-up rows

The connector `test` fills rows from templates: a text such as `<word>`, `<int>` or
`<number(1-10)>` stands for a random value, every other value for itself.

* `Sample.Template` — what a template stands for;
* `Sample.templateOf` — the template that a value writes;
* `Sample.generate` — a value for a template;
* `Sample.read` — the rows that parameters ask for.
-/

namespace TableRecipe.Sample

/-- the words to choose from -/
def words : List String :=
  ["apple", "river", "stone", "cloud", "ember", "forest", "harbor", "lantern", "meadow", "orbit",
    "pepper", "quartz", "saddle", "timber", "velvet", "willow"]

/-- what a template stands for -/
inductive Template where
  /-- itself -/
  | constant (value : Value)
  /-- one of the words -/
  | word
  /-- a letter from a to z -/
  | letter
  /-- a truth value -/
  | truth
  /-- an integer between two bounds -/
  | integer (low high : Int)
  /-- a floating-point number between two bounds, to two places -/
  | decimal (low high : Binary64)
  /-- nothing: the bounds are not in order, or not numbers -/
  | invalid (error : Error)
  deriving DecidableEq, Repr

/-- a bound at the front of a text: a sign, digits, and perhaps a fraction -/
def readBound (cs : List Char) : Option (List Char × List Char) :=
  let (sign, body) := match cs with
    | '-' :: rest => (['-'], rest)
    | _ => ([], cs)
  let whole := body.takeWhile Letter.isDecimalDigit
  if whole.isEmpty then none
  else
    let rest := body.dropWhile Letter.isDecimalDigit
    match rest with
    | '.' :: more =>
      let fraction := more.takeWhile Letter.isDecimalDigit
      if fraction.isEmpty then some (sign ++ whole, rest)
      else some (sign ++ whole ++ '.' :: fraction, more.dropWhile Letter.isDecimalDigit)
    | _ => some (sign ++ whole, rest)

/-- the bounds in a text of the form `<number(low-high)>` -/
def readRange (text : String) : Option (List Char × List Char) := do
  let body ← Split.after? "<number(".toList text.toList
  let (low, rest) ← readBound body
  let rest ← Split.after? ['-'] rest
  let (high, rest) ← readBound rest
  if rest = [')', '>'] then some (low, high) else none

/-- an integer of 64 bits -/
def integer? (cs : List Char) : Option Int :=
  Decimal.integer? Binary64.minSigned Binary64.maxSigned cs

/-- the failure of bounds that are not in order -/
def emptyRange (low high : List Char) : Error :=
  .validation s!"test: empty range {String.ofList low}-{String.ofList high}"

/-- the failure of a bound that is no number -/
def invalidBound (bound : List Char) : Error :=
  .validation s!"test: invalid bound '{String.ofList bound}'"

/-- a template with bounds: integers if both are -/
def ranged (low high : List Char) : Template :=
  match integer? low, integer? high with
  | some first, some last =>
    if last < first then
      .invalid (emptyRange (Number.integerText first) (Number.integerText last))
    else .integer first last
  | _, _ =>
    match Decimal.read? low, Decimal.read? high with
    | none, _ => .invalid (invalidBound low)
    | _, none => .invalid (invalidBound high)
    | some first, some last =>
      if first.compare? last = some .gt then
        .invalid (emptyRange (first.text .plain) (last.text .plain))
      else if first.isFinite && last.isFinite then .decimal first last
      else .invalid (.of .overflow)

/-- the template that a value writes -/
def templateOf : Value → Template
  | .string "<word>" => .word
  | .string "<char>" => .letter
  | .string "<int>" => .integer 0 999
  | .string "<boolean>" => .truth
  | .string "<number>" => .integer 0 99
  | .string text =>
    match readRange text with
    | some (low, high) => ranged low high
    | none => .constant (.string text)
  | other => .constant other

/-- a number to two places, null if it is not finite -/
def toPlaces (number : Binary64) : Value :=
  .ofBinary64 ((number.times (.ofInt 100)).roundHalfAway.dividedBy (.ofInt 100))

/-- a random integer between two bounds -/
def drawInteger (low high : Int) : Engine Int :=
  Engine.draw fun draws drawn => draws.integer drawn low high

/-- a value for a template -/
def generate : Template → Engine Value
  | .constant value => return value
  | .word => return .string ((words[(← drawInteger 0 15).toNat]?).getD "")
  | .letter => return .string (String.singleton (Char.ofNat (97 + (← drawInteger 0 25).toNat)))
  | .truth => return .bool ((← drawInteger 0 1) = 1)
  | .integer low high => return .ofInt (← drawInteger low high)
  | .decimal low high =>
    return toPlaces (← Engine.draw fun draws drawn => draws.decimal drawn low high)
  | .invalid error => throw error

/-- how many rows parameters ask for -/
def rowCount (params : Fields) : Except Error Nat :=
  let refusal := Error.validation "test: 'rows' must be a whole number"
  match Fields.find? "rows" params with
  | none => .ok 1
  | some (.string text) =>
    match Decimal.whole? 64 (Split.trim text.toList) with
    | some rows => .ok rows
    | none => .error refusal
  | some other =>
    match other.natural? with
    | some rows => .ok rows
    | none => .error refusal

/-- the templates by the name of their column -/
def templates (params : Fields) : Except Error Fields :=
  match Fields.find? "values" params with
  | some (.object values) => .ok values
  | none => .ok []
  | some _ => .error (.validation "test: 'values' must be a mapping")

/-- the rows that parameters ask for -/
def read (params : Fields) : Engine Table := do
  let rows ← Engine.ofExcept (rowCount params)
  let values ← Engine.ofExcept (templates params)
  let columns ← values.mapM fun (name, template) => do
    let cells ← (List.replicate rows (templateOf template)).mapM generate
    return { name, cells : Column }
  if values.isEmpty then return .ofIndex (List.range rows)
  Engine.ofExcept (Table.ofColumns columns)

end TableRecipe.Sample
