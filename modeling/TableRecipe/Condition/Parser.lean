import TableRecipe.Condition.Basic

/-!
# Reading conditions

`OR` binds weaker than `AND`, `AND` weaker than `NOT`; both join from the left. Parameters by
place are numbered in the order in which they are written.

* `Condition.read` — the condition that a text writes.
-/

namespace TableRecipe

namespace Condition

/-- what is left to read: the words, and the number of the next parameter by place -/
structure Rest where
  /-- the words -/
  tokens : List Token
  /-- the number of the next parameter -/
  slot : Nat

/-- a reader of a part of a condition -/
abbrev Reader := StateT Rest (Except Error)

namespace Reader

/-- the next word, which stays -/
def peek : Reader (Option Token) := return (← get).tokens.head?

/-- the next word, which is taken -/
def next : Reader (Option Token) := do
  let rest ← get
  set { rest with tokens := rest.tokens.drop 1 }
  return rest.tokens.head?

/-- takes the next word if it is the one given -/
def take (token : Token) : Reader Bool := do
  let rest ← get
  if rest.tokens.head? = some token then
    set { rest with tokens := rest.tokens.drop 1 }
    return true
  else return false

/-- takes a keyword that must come next -/
def expectKeyword (keyword : Keyword) : Reader Unit := do
  if !(← take (.word keyword)) then throw (.conditionSyntax s!"expected {keyword.text}")

/-- takes a word that must come next -/
def expect (token : Token) : Reader Unit := do
  let found ← next
  if found ≠ some token then
    throw (.conditionSyntax s!"expected {token.message}, found {Token.messageOf found}")

end Reader

/-- a number as a value: an integer if it is whole and below `2 ^ 63` in magnitude, null if it is
not finite -/
def numberValue (number : Binary64) : Value :=
  if number.isWhole && number.isBelow (Nat.pow 2 63) then .ofInt number.truncate
  else .ofBinary64 number

/-- an operand -/
def readOperand : Reader Operand := do
  match ← Reader.next with
  | some (.column name) => return .column name
  | some (.literal text) => return .literal (.string text)
  | some (.number number) => return .literal (numberValue number)
  | some .minus =>
    match ← Reader.next with
    | some (.number number) => return .literal (numberValue number.negate)
    | other => throw (.conditionSyntax
        s!"expected a number after '-', found {Token.messageOf other}")
  | some (.word .null) => return .literal .null
  | some (.word .truth) => return .literal (.bool true)
  | some (.word .falsity) => return .literal (.bool false)
  | some .positional =>
    let rest ← get
    set { rest with slot := rest.slot + 1 }
    return .positional rest.slot
  | some (.named name) => return .named name
  | other => throw (.conditionSyntax
      s!"expected a column, literal or parameter, found {Token.messageOf other}")

/-- the operands of a list after the first, each after a comma; `fuel` bounds their number -/
def readMore : (fuel : Nat) → Reader (List Operand)
  | 0 => return []
  | fuel + 1 => do
    if ← Reader.take .comma then
      let item ← readOperand
      return item :: (← readMore fuel)
    else return []

/-- what follows the first operand of a simple condition -/
def readTail (operand : Operand) : Reader (Condition Operand) := do
  match ← Reader.peek with
  | some (.sign operator) =>
    let _ ← Reader.next
    return .compare operand operator (← readOperand)
  | _ =>
    if ← Reader.take (.word .is) then
      let negated ← Reader.take (.word .not)
      Reader.expectKeyword .null
      return .isNull operand negated
    let negated ← Reader.take (.word .not)
    if ← Reader.take (.word .among) then
      Reader.expect .openParen
      let first ← readOperand
      let more ← readMore (← get).tokens.length
      Reader.expect .closeParen
      return .among operand (first :: more) negated
    if ← Reader.take (.word .like) then return .like operand (← readOperand) negated
    if ← Reader.take (.word .between) then
      let low ← readOperand
      Reader.expectKeyword .and
      return .between operand low (← readOperand) negated
    if negated then throw (.conditionSyntax "expected IN, LIKE or BETWEEN after NOT")
    return .truth operand

mutual
/-- conditions joined by `OR`; `fuel` bounds the number of steps -/
def readOr : (fuel : Nat) → Reader (Condition Operand)
  | 0 => throw (.of (.internal "condition too long"))
  | fuel + 1 => do readOrs fuel (← readAnd fuel)
/-- the conditions after the first that `OR` joins to it -/
def readOrs : (fuel : Nat) → Condition Operand → Reader (Condition Operand)
  | 0, _ => throw (.of (.internal "condition too long"))
  | fuel + 1, left => do
    if ← Reader.take (.word .or) then readOrs fuel (.or left (← readAnd fuel))
    else return left
/-- conditions joined by `AND` -/
def readAnd : (fuel : Nat) → Reader (Condition Operand)
  | 0 => throw (.of (.internal "condition too long"))
  | fuel + 1 => do readAnds fuel (← readNot fuel)
/-- the conditions after the first that `AND` joins to it -/
def readAnds : (fuel : Nat) → Condition Operand → Reader (Condition Operand)
  | 0, _ => throw (.of (.internal "condition too long"))
  | fuel + 1, left => do
    if ← Reader.take (.word .and) then readAnds fuel (.and left (← readNot fuel))
    else return left
/-- a condition after any number of `NOT` -/
def readNot : (fuel : Nat) → Reader (Condition Operand)
  | 0 => throw (.of (.internal "condition too long"))
  | fuel + 1 => do
    if ← Reader.take (.word .not) then return .not (← readNot fuel)
    else readSimple fuel
/-- a condition in parentheses, or a simple one -/
def readSimple : (fuel : Nat) → Reader (Condition Operand)
  | 0 => throw (.of (.internal "condition too long"))
  | fuel + 1 => do
    if ← Reader.take .openParen then
      let inner ← readOr fuel
      Reader.expect .closeParen
      return inner
    else readTail (← readOperand)
end

/-- the condition that a text writes -/
def read (text : String) : Except Error (Condition Operand) := do
  let tokens ← Token.scan text
  if tokens.isEmpty then throw (.conditionSyntax "empty where clause")
  let (condition, rest) ← (readOr (6 * tokens.length + 6)).run { tokens, slot := 0 }
  if rest.tokens.isEmpty then return condition
  else throw (.conditionSyntax s!"unexpected trailing input in '{text}'")

end Condition

end TableRecipe
