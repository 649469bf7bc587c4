import TableRecipe.Pattern.Search

/-!
# Moves

An expression that repeats nothing but single characters, any number of times, is a list of moves
over a text. What such a list finds is said by trying: a move over many characters goes over as
many as it can, and over fewer if that does not lead to a match.

* `Move` — a move, with `Expression.moves?`, the moves of an expression;
* `attempt` — what moves find at a place in a text;
* `leftmost` — what they find from a place on;
* `attempt_isSome` — whether they find something does not depend on what was remembered before.
-/

namespace TableRecipe.Pattern

/-- a move over a text -/
inductive Move where
  /-- over one character of a set -/
  | read (chars : CharSet)
  /-- over characters of a set, as many as possible -/
  | many (chars : CharSet)
  /-- over nothing, if a condition holds -/
  | check (assertion : Assertion)
  /-- over nothing, remembering the position -/
  | save (slot : Nat)

/-- the moves of an expression that repeats nothing but single characters -/
def Expression.moves? : Expression → Option (List Move)
  | empty => some []
  | set chars => some [.read chars]
  | check assertion => some [.check assertion]
  | capture number inner =>
    inner.moves?.map fun moves => .save (2 * number) :: (moves ++ [.save (2 * number + 1)])
  | andThen first second => do return (← first.moves?) ++ (← second.moves?)
  | times 0 none true (set chars) => some [.many chars]
  | _ => none

/-- a place in a text: the characters passed, last first, and the rest -/
abbrev Goal := (passed rest : List Char) → Option Slots

/-- the first success of a goal behind characters of a set, as many as possible -/
def longest (chars : CharSet) (goal : Goal) : Goal
  | passed, [] => goal passed []
  | passed, c :: rest =>
    if chars.contains c then
      (longest chars goal (c :: passed) rest).or (goal passed (c :: rest))
    else goal passed (c :: rest)

/-- the positions remembered when moves lead to a match -/
def attempt : List Move → (slots : Slots) → Goal
  | [], slots, _, _ => some slots
  | .read _ :: _, _, _, [] => none
  | .read chars :: moves, slots, passed, c :: rest =>
    if chars.contains c then attempt moves slots (c :: passed) rest else none
  | .many chars :: moves, slots, passed, rest => longest chars (attempt moves slots) passed rest
  | .check assertion :: moves, slots, passed, rest =>
    if assertion.holds passed.head? rest.head? then attempt moves slots passed rest else none
  | .save slot :: moves, slots, passed, rest =>
    attempt moves ((slot, passed.length) :: slots) passed rest

/-- the positions remembered in the leftmost match -/
def leftmost (moves : List Move) : Goal
  | passed, [] => attempt moves [] passed []
  | passed, c :: rest =>
    (attempt moves [] passed (c :: rest)).or (leftmost moves (c :: passed) rest)

variable {moves : List Move} {slots slots' : Slots} {passed rest : List Char} {chars : CharSet}

/-- A move over many characters is a move over one more, or over none. -/
theorem attempt_many :
    attempt (.many chars :: moves) slots passed rest =
      (attempt (.read chars :: .many chars :: moves) slots passed rest).or
        (attempt moves slots passed rest) := by
  cases rest with
  | nil => rfl
  | cons c rest =>
    cases hc : chars.contains c <;> simp [attempt, longest, hc]

theorem longest_isSome {goal goal' : Goal}
    (h : ∀ passed rest, (goal passed rest).isSome = (goal' passed rest).isSome) :
    (longest chars goal passed rest).isSome = (longest chars goal' passed rest).isSome := by
  induction rest generalizing passed with
  | nil => exact h _ _
  | cons c rest ih =>
    rw [longest, longest]
    split
    · rw [Option.isSome_or, Option.isSome_or, ih, h]
    · exact h _ _

/-- Whether moves lead to a match does not depend on what was remembered before. -/
theorem attempt_isSome (moves : List Move) (slots slots' : Slots) (passed rest : List Char) :
    (attempt moves slots passed rest).isSome = (attempt moves slots' passed rest).isSome := by
  induction moves generalizing slots slots' passed rest with
  | nil => rfl
  | cons move moves ih =>
    cases move with
    | read chars =>
      cases rest with
      | nil => rfl
      | cons c rest =>
        rw [attempt, attempt]
        split
        · exact ih ..
        · rfl
    | many chars => exact longest_isSome fun passed rest => ih slots slots' passed rest
    | check assertion =>
      rw [attempt, attempt]
      split
      · exact ih ..
      · rfl
    | save slot => exact ih ..

end TableRecipe.Pattern
