import TableRecipe.Error
import TableRecipe.Number
import TableRecipe.Text.Split

/-!
# Slices

`start:stop:step` picks places of a list: from `start` on, every `step`-th, up to but without
`stop`. Negative bounds count from the end, a negative step goes backwards, and parts may be left
out. The bounds and the step are signed integers of 64 bits, and so are all places on the way.

* `Slice` — the three parts;
* `Slice.read?` — the slice that a text writes;
* `Slice.positions` — the places it picks in a list of a length.
-/

namespace TableRecipe

/-- a slice; a part that is left out is `none` -/
structure Slice where
  /-- the first place -/
  start : Option Int
  /-- the place to stop before -/
  stop : Option Int
  /-- the distance between places -/
  step : Option Int
  deriving DecidableEq, Repr

namespace Slice

/-- a signed integer of 64 bits -/
def integer? (cs : List Char) : Option Int :=
  Decimal.integer? Binary64.minSigned Binary64.maxSigned cs

/-- one part of a slice: blank, or an integer between blanks -/
def part? (cs : List Char) : Option (Option Int) :=
  let body := Split.trim cs
  if body.isEmpty then some none else (integer? body).map some

/-- the slice that a text writes: two or three parts between colons -/
def read? (cs : List Char) : Option Slice :=
  match Split.on ':' cs with
  | [start, stop] => do some ⟨← part? start, ← part? stop, none⟩
  | [start, stop, step] => do some ⟨← part? start, ← part? stop, ← part? step⟩
  | _ => none

/-- a bound counted from the front and kept between two places -/
def clamp (length low high bound : Int) : Int :=
  let bound := if bound < 0 then bound + length else bound
  if bound < low then low else if high < bound then high else bound

/-- the places `position, position + step, …` before `stop` -/
def ascend (step stop position : Int) : Except Error (List Nat) :=
  if _h : 0 < step ∧ position < stop then
    if Binary64.maxSigned < position + step then throw (.of .overflow)
    else do return position.toNat :: (← ascend step stop (position + step))
  else return []
termination_by (stop - position).toNat
decreasing_by omega

/-- the places `position, position + step, …` after `stop`, for a negative step -/
def descend (step stop position : Int) : Except Error (List Nat) :=
  if _h : step < 0 ∧ stop < position then
    if position + step < Binary64.minSigned then throw (.of .overflow)
    else do return position.toNat :: (← descend step stop (position + step))
  else return []
termination_by (position - stop).toNat
decreasing_by omega

/-- the places that a slice picks in a list of a length, in order -/
def positions (slice : Slice) (length : Nat) : Except Error (List Nat) :=
  let length : Int := length
  let step := slice.step.getD 1
  if step = 0 then throw (.validation "slice step cannot be zero")
  else if 0 < step then
    let start := (slice.start.map (clamp length 0 length)).getD 0
    let stop := (slice.stop.map (clamp length 0 length)).getD length
    ascend step stop start
  else
    let start := (slice.start.map (clamp length (-1) (length - 1))).getD (length - 1)
    let stop := (slice.stop.map (clamp length (-1) (length - 1))).getD (-1)
    descend step stop start

end Slice

end TableRecipe
