import TableRecipe.Condition.Token
import TableRecipe.Value

/-!
# Conditions

The structure of a condition on rows, over operands of any kind: those of the written form, where
parameters are still open, or those of a condition that is ready to be evaluated.

* `Comparison` — the six comparisons;
* `Condition` — a condition, with `Condition.traverse`, which replaces its operands;
* `Operand` — the operands of the written form.
-/

namespace TableRecipe

/-- a comparison of two values -/
inductive Comparison where
  | equal | unequal | less | lessEqual | greater | greaterEqual
  deriving DecidableEq, Repr

namespace Comparison

/-- whether two values in an order satisfy the comparison -/
def holds : Comparison → Ordering → Bool
  | equal, order => order == .eq
  | unequal, order => order != .eq
  | less, order => order == .lt
  | lessEqual, order => order != .gt
  | greater, order => order == .gt
  | greaterEqual, order => order != .lt

/-- the comparison that a sign stands for -/
def ofOperator : Operator → Comparison
  | .equal | .doubleEqual => equal
  | .bangEqual | .angles => unequal
  | .less => less
  | .lessEqual => lessEqual
  | .greater => greater
  | .greaterEqual => greaterEqual

end Comparison

/-- a condition over operands -/
inductive Condition (α : Type) where
  /-- one of two conditions -/
  | or (left right : Condition α)
  /-- both conditions -/
  | and (left right : Condition α)
  /-- not the condition -/
  | not (inner : Condition α)
  /-- a comparison, as it is written -/
  | compare (left : α) (operator : Operator) (right : α)
  /-- the value is one of a list, or none of it -/
  | among (value : α) (items : List α) (negated : Bool)
  /-- the value has the form of a pattern, or has not -/
  | like (value pattern : α) (negated : Bool)
  /-- the value lies between two others, or does not -/
  | between (value low high : α) (negated : Bool)
  /-- the value is null, or is not -/
  | isNull (value : α) (negated : Bool)
  /-- the value counts as true -/
  | truth (value : α)
  deriving Repr, DecidableEq

namespace Condition

/-- a condition with its operands replaced from left to right, unless one of them cannot be -/
def traverse (f : α → Except Error β) : Condition α → Except Error (Condition β)
  | or left right => return or (← left.traverse f) (← right.traverse f)
  | and left right => return and (← left.traverse f) (← right.traverse f)
  | not inner => return not (← inner.traverse f)
  | compare left operator right => return compare (← f left) operator (← f right)
  | among value items negated => return among (← f value) (← items.mapM f) negated
  | like value pattern negated => return like (← f value) (← f pattern) negated
  | between value low high negated => return between (← f value) (← f low) (← f high) negated
  | isNull value negated => return isNull (← f value) negated
  | truth value => return truth (← f value)

end Condition

/-- an operand of the written form -/
inductive Operand where
  /-- a column -/
  | column (name : String)
  /-- a value -/
  | literal (value : Value)
  /-- a parameter by place, counted from zero -/
  | positional (slot : Nat)
  /-- a parameter by name -/
  | named (name : String)
  deriving Repr, DecidableEq

end TableRecipe
