import TableRecipe.Condition.Parser
import TableRecipe.Condition.Like
import TableRecipe.Table.Basic

/-!
# Evaluating conditions

A condition on a row is true, false or, as soon as a null decides, unknown. Values that both read
as numbers compare as numbers, all others as texts. Only rows for which the condition is true are
selected.

* `Term` — operands that are ready: columns and values;
* `Condition.bind` — a condition with its parameters filled in, over columns that exist;
* `Condition.eval` — the truth of a condition for a row, three-valued;
* `Condition.mask`, `Condition.filter` — the rows of a table that a condition selects.
-/

namespace TableRecipe

/-- an operand that is ready to be evaluated -/
inductive Term where
  /-- a column -/
  | column (name : String)
  /-- a value -/
  | literal (value : Value)
  deriving Repr, DecidableEq

namespace Term

/-- the value of an operand in a row -/
def value (row : String → Value) : Term → Value
  | column name => row name
  | literal value => value

end Term

namespace Value

/-- a value as a number, if it is one or its text reads as one -/
def toBinary64? : Value → Option Binary64
  | number n => some n.toBinary64
  | string text =>
    let body := Split.trim text.toList
    if body.isEmpty then none else Decimal.read? body
  | _ => none

/-- the order of two values: of numbers as numbers, of anything else as texts; unknown if one of
them is null or an undefined number -/
def order? (left right : Value) : Option Ordering :=
  if left.isNull || right.isNull then none
  else match left.toBinary64?, right.toBinary64? with
    | some a, some b => a.compare? b
    | _, _ => some (compare left.text right.text)

/-- whether the text of a value has the form of a pattern, unknown for nulls -/
def like? (value pattern : Value) : Option Bool :=
  if value.isNull || pattern.isNull then none
  else Like.hasForm? pattern.text.toList value.text.toList

/-- whether a value counts as true, unknown for null -/
def truth? : Value → Option Bool
  | null => none
  | bool flag => some flag
  | number n => some (!n.toBinary64.isZero)
  | string text => some (["true", "1", "yes"].contains (text.map Char.toLower))
  | _ => some true

end Value

/-- a truth value that may be unknown -/
abbrev Truth := Option Bool

namespace Truth

/-- true as soon as one side is, false if both are -/
def or : Truth → Truth → Truth
  | some true, _ | _, some true => some true
  | some false, some false => some false
  | _, _ => none

/-- false as soon as one side is, true if both are -/
def and : Truth → Truth → Truth
  | some false, _ | _, some false => some false
  | some true, some true => some true
  | _, _ => none

/-- the opposite; what is unknown stays unknown -/
def not (truth : Truth) : Truth := truth.map (!·)

/-- the opposite if asked for -/
def negateIf (negated : Bool) (truth : Truth) : Truth := truth.map (· != negated)

end Truth

namespace Condition

/-! ## Parameters -/

/-- an operand with its parameter filled in, over the columns of a table -/
def bindOperand (table : Table) (params : Value) : Operand → Except Error Term
  | .column name => if table.has name then .ok (.column name) else .error (.unknownColumn name)
  | .literal value => .ok (.literal value)
  | .positional slot =>
    match params with
    | .list values =>
      match values[slot]? with
      | some value => .ok (.literal value)
      | none => missing (slot + 1)
    | _ => missing (slot + 1)
  | .named name =>
    match params.field? name with
    | some value => .ok (.literal value)
    | none => .error (.validation s!"where_params has no value for ':{name}'")
where
  /-- the failure for a parameter by place without value -/
  missing (number : Nat) : Except Error Term :=
    .error (.validation s!"where_params has no value for parameter #{number}")

/-- a condition with its parameters filled in, over the columns of a table -/
def bind (condition : Condition Operand) (table : Table) (params : Value) :
    Except Error (Condition Term) :=
  condition.traverse (bindOperand table params)

/-! ## Truth -/

/-- whether a value equals one of a list: true at the first equal one, else unknown if some
comparison was -/
def amongTruth (value : Value) : (items : List Value) → Truth
  | [] => some false
  | item :: rest =>
    match value.order? item with
    | some .eq => some true
    | some _ => amongTruth value rest
    | none => if amongTruth value rest = some true then some true else none

/-- the truth of a condition for a row -/
def eval (row : String → Value) : Condition Term → Truth
  | or left right => Truth.or (left.eval row) (right.eval row)
  | and left right => Truth.and (left.eval row) (right.eval row)
  | not inner => Truth.not (inner.eval row)
  | compare left operator right =>
    ((left.value row).order? (right.value row)).map (Comparison.ofOperator operator).holds
  | among value items negated =>
    if (value.value row).isNull then none
    else Truth.negateIf negated (amongTruth (value.value row) (items.map (·.value row)))
  | like value pattern negated =>
    Truth.negateIf negated ((value.value row).like? (pattern.value row))
  | between value low high negated =>
    match (value.value row).order? (low.value row), (value.value row).order? (high.value row) with
    | some above, some below => some ((above != .lt && below != .gt) != negated)
    | _, _ => none
  | isNull value negated => some ((value.value row).isNull != negated)
  | truth value => (value.value row).truth?

/-! ## Rows -/

/-- which rows of a table a condition selects -/
def mask (condition : Condition Operand) (table : Table) (params : Value) :
    Except Error (List Bool) := do
  let bound ← condition.bind table params
  return (List.range table.length).map fun row => bound.eval (table.cell · row) == some true

/-- the rows of a table that a condition selects, with their labels -/
def filter (condition : Condition Operand) (table : Table) (params : Value) :
    Except Error Table :=
  return table.filterMask (← condition.mask table params)

/-- the rows of a table that the condition written in a text selects -/
def filterText (table : Table) (text : String) (params : Value) : Except Error Table := do
  (← read text).filter table params

end Condition

end TableRecipe
