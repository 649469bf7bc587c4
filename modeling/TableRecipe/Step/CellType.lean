import TableRecipe.Json.Printer
import TableRecipe.Moment
import TableRecipe.Error

/-!
# Types of cells

* `CellType` — what cells may be converted to;
* `CellType.convert` — the conversion of a cell: null stays null.
-/

namespace TableRecipe

/-- what cells may be converted to -/
inductive CellType where
  /-- texts -/
  | text
  /-- integers of 64 bits -/
  | integer
  /-- floating-point numbers -/
  | decimal
  /-- truth values -/
  | truth
  /-- points in time -/
  | moment
  deriving DecidableEq, Repr, Inhabited

namespace CellType

/-- the type that a word names, in any ASCII case -/
def ofWord (word : String) : Except Error CellType :=
  match word.map Char.toLower with
  | "str" | "string" => .ok text
  | "int" | "integer" => .ok integer
  | "float" | "number" => .ok decimal
  | "bool" | "boolean" => .ok truth
  | "datetime" | "date" => .ok moment
  | other => .error (.validation s!"convert.data_type: unknown data type '{other}'")

/-- the name of a type in messages -/
def name : CellType → String
  | text => "Str"
  | integer => "Int"
  | decimal => "Float"
  | truth => "Bool"
  | moment => "Datetime"

/-- the floating-point number that a text denotes between blanks -/
def number? (text : String) : Option Binary64 := Decimal.read? (Split.trim text.toList)

/-- an integer for a cell: integers stay as they are, truth values count as 0 and 1, all others
are read as floating-point numbers and cut -/
def integer? (cell : Value) : Option Value :=
  let cut := fun (_ : Unit) => do
    let number ← number? cell.text
    if number.isFinite then some (.ofInt number.truncate) else none
  match cell with
  | .number number => if number.signed?.isSome then some cell else cut ()
  | .bool flag => some (.ofInt (if flag then 1 else 0))
  | _ => cut ()

/-- a floating-point number for a cell -/
def decimal? (cell : Value) : Option Value := do
  some (.number (← Number.ofBinary64? (← number? cell.text)))

/-- a truth value for a cell -/
def truth? (cell : Value) : Option Value :=
  match (Split.trimText cell.text).map Char.toLower with
  | "true" | "1" | "yes" | "y" => some (.bool true)
  | "false" | "0" | "no" | "n" | "" => some (.bool false)
  | _ => none

/-- the normal text of the point in time that a cell writes; null for an empty text -/
def moment? (cell : Value) : Option Value :=
  let body := Split.trim cell.text.toList
  if body.isEmpty then some .null
  else (Moment.read? body).map fun moment => .string moment.text

/-- a cell converted to a type, if it can be -/
def convert? (type : CellType) (cell : Value) : Option Value :=
  if cell.isNull then some .null
  else match type with
    | text => some (.string cell.text)
    | integer => integer? cell
    | decimal => decimal? cell
    | truth => truth? cell
    | moment => moment? cell

/-- a cell converted to a type -/
def convert (type : CellType) (cell : Value) : Except Error Value :=
  match type.convert? cell with
  | some converted => .ok converted
  | none => .error (.validation
      s!"convert.data_type: cannot convert '{cell.text}' to {type.name}")

end CellType

end TableRecipe
