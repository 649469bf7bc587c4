import TableRecipe.Json.Printer
import TableRecipe.Text.Split

/-!
# Tests of single cells

* `CellTest` — a test;
* `CellTest.holds` — whether a cell passes it;
* `CellTest.ofParams?` — the test that parameters ask for.
-/

namespace TableRecipe

/-- a test of a cell -/
inductive CellTest where
  /-- the cell is one of several values -/
  | among (values : List Value)
  /-- the cell is none of several values -/
  | notAmong (values : List Value)
  /-- the text of the cell holds a text -/
  | contains (part : String)
  deriving DecidableEq, Repr, Inhabited

namespace CellTest

/-- whether a cell is one of several values, told apart by their keys -/
def isAmong (cell : Value) (values : List Value) : Bool := values.any (·.key = cell.key)

/-- whether a cell passes a test -/
def holds (cell : Value) : CellTest → Bool
  | among values => isAmong cell values
  | notAmong values => !isAmong cell values
  | contains part => Split.has part.toList cell.text.toList

/-- the values in a parameter: a list, or one value alone -/
def valuesOf : Value → List Value
  | .list items => items
  | other => [other]

/-- the test that parameters ask for; of several, the first in the order `equal`, `not_equal`,
`contains`, `is_in` -/
def ofParams? (params : Fields) : Option CellTest :=
  match Fields.find? "equal" params, Fields.find? "not_equal" params,
    Fields.find? "contains" params, Fields.find? "is_in" params with
  | some value, _, _, _ => some (among (valuesOf value))
  | none, some value, _, _ => some (notAmong (valuesOf value))
  | none, none, some value, _ => some (contains value.text)
  | none, none, none, some value => some (among (valuesOf value))
  | none, none, none, none => none

end CellTest

end TableRecipe
