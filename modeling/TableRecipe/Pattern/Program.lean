import TableRecipe.Pattern.Expression

/-!
# Programs for patterns

A regular expression as a program of numbered instructions. Where two ways lead on, the preferred
one comes first.

* `Instruction` — a step of the matcher;
* `Program.ofExpression` — the program of an expression.
-/

namespace TableRecipe.Pattern

/-- a step of the matcher -/
inductive Instruction where
  /-- the text matches -/
  | accept
  /-- go on after a character of the set -/
  | read (chars : CharSet) (next : Nat)
  /-- try one way, then the other -/
  | split (preferred other : Nat)
  /-- remember the position -/
  | save (slot next : Nat)
  /-- go on if the condition holds -/
  | check (assertion : Assertion) (next : Nat)
  deriving Inhabited

/-- instructions, numbered from zero -/
abbrev Program := Array Instruction

namespace Program

/-- adds an instruction and answers its number -/
def add (instruction : Instruction) : StateM Program Nat := do
  let program ← get
  set (program.push instruction)
  return program.size

/-- changes an instruction -/
def patch (place : Nat) (instruction : Instruction) : StateM Program Unit :=
  modify (·.setIfInBounds place instruction)

/-- a choice between going into a repetition and going on -/
def choose (greedy : Bool) (inside after : Nat) : Instruction :=
  if greedy then .split inside after else .split after inside

/-- `count` copies of a part, one after the other, before `next` -/
def copies (part : Nat → StateM Program Nat) : (count next : Nat) → StateM Program Nat
  | 0, next => return next
  | count + 1, next => do copies part count (← part next)

/-- up to `count` copies of a part, each inside the one before it, before `next` -/
def optionalCopies (greedy : Bool) (part : Nat → StateM Program Nat) (next : Nat) :
    (count : Nat) → StateM Program Nat
  | 0 => return next
  | count + 1 => do
    let rest ← optionalCopies greedy part next count
    let start ← part rest
    add (choose greedy start next)

/-- a part once or more before `next` -/
def onceOrMore (greedy : Bool) (part : Nat → StateM Program Nat) (next : Nat) :
    StateM Program Nat := do
  let again ← add .accept
  let start ← part again
  patch again (choose greedy start next)
  return start

/-- a part any number of times before `next`; a part that can be empty is entered at most once
without progress -/
def anyNumber (greedy nullable : Bool) (part : Nat → StateM Program Nat) (next : Nat) :
    StateM Program Nat := do
  if nullable then
    let start ← onceOrMore greedy part next
    add (choose greedy start next)
  else
    let again ← add .accept
    let start ← part again
    patch again (choose greedy start next)
    return again

/-- adds the instructions of an expression before `next` and answers where they start -/
def compile : Expression → Nat → StateM Program Nat
  | .empty, next => return next
  | .set chars, next => add (.read chars next)
  | .check assertion, next => add (.check assertion next)
  | .capture number inner, next => do
    let close ← add (.save (2 * number + 1) next)
    let start ← compile inner close
    add (.save (2 * number) start)
  | .andThen first second, next => do
    let middle ← compile second next
    compile first middle
  | .orElse first second, next => do
    let left ← compile first next
    let right ← compile second next
    add (.split left right)
  | .times least most greedy inner, next => do
    let part := compile inner
    match most with
    | some most =>
      let tail ← optionalCopies greedy part next (most - least)
      copies part least tail
    | none =>
      match least with
      | 0 => anyNumber greedy inner.nullable part next
      | least + 1 =>
        let tail ← onceOrMore greedy part next
        copies part least tail

/-- a program and its first instruction, for an expression as group zero -/
def ofExpression (expression : Expression) : Program × Nat :=
  let build : StateM Program Nat := do
    let accept ← add .accept
    compile (.capture 0 expression) accept
  let (start, program) := build.run #[]
  (program, start)

end Program

end TableRecipe.Pattern
