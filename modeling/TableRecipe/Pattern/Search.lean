import TableRecipe.Pattern.Reader
import TableRecipe.Pattern.Program

/-!
# Searching with patterns

The leftmost match, and of the matches that start there the one that the expression prefers. All
ways through the program are followed side by side, in order of preference, one character at a
time.

* `Regex.find?` — the positions of the match and of its groups;
* `Regex.isMatch` — whether there is a match;
* `Regex.replaceFirst` — the text with the match replaced from a template.
-/

namespace TableRecipe.Pattern

/-- remembered positions, by slot -/
abbrev Slots := List (Nat × Nat)

namespace Slots

/-- the position remembered last under a slot -/
def at? (slots : Slots) (slot : Nat) : Option Nat := (slots.find? (·.1 = slot)).map (·.2)

end Slots

/-- a way through the program: the next instruction and the positions remembered -/
abbrev Thread := Nat × Slots

/-- follows the ways that need no character: `pending` in order of preference, `found` those that
wait for a character or accept, last first; each instruction is entered once, so that `fuel`
bounds the number of steps -/
def follow (program : Program) (position : Nat) (before after : Option Char) :
    (fuel : Nat) → (pending : List Thread) → (entered : List Nat) → (found : List Thread) →
    List Nat × List Thread
  | 0, _, entered, found => (entered, found)
  | _, [], entered, found => (entered, found)
  | fuel + 1, (place, slots) :: pending, entered, found =>
    if entered.contains place then follow program position before after fuel pending entered found
    else
      let entered := place :: entered
      match program[place]? with
      | none => follow program position before after fuel pending entered found
      | some .accept | some (.read _ _) =>
        follow program position before after fuel pending entered ((place, slots) :: found)
      | some (.split preferred other) =>
        follow program position before after fuel ((preferred, slots) :: (other, slots) :: pending)
          entered found
      | some (.save slot next) =>
        follow program position before after fuel ((next, (slot, position) :: slots) :: pending)
          entered found
      | some (.check assertion next) =>
        if assertion.holds before after then
          follow program position before after fuel ((next, slots) :: pending) entered found
        else follow program position before after fuel pending entered found

/-- moves the threads over a character, in order of preference, up to the first that accepts:
the threads after the character, and the positions of the accepting thread -/
def advance (program : Program) (next : Option Char) : List Thread → List Thread × Option Slots
  | [] => ([], none)
  | (place, slots) :: rest =>
    match program[place]? with
    | some .accept => ([], some slots)
    | some (.read chars target) =>
      let (moved, accepted) := advance program next rest
      if next.any chars.contains then ((target, slots) :: moved, accepted) else (moved, accepted)
    | _ => advance program next rest

/-- runs the program over the rest of the text: `threads` in order of preference, `best` the match
found so far, which later threads may still improve on -/
def run (program : Program) (start position : Nat) (before : Option Char) (threads : List Thread)
    (best : Option Slots) (text : List Char) : Option Slots :=
  let after := text.head?
  -- a match that starts here is tried last, and only while there is none
  let pending := if best.isNone then threads ++ [(start, [])] else threads
  let (_, found) := follow program position before after (3 * program.size + pending.length + 3)
    pending [] []
  let (moved, accepted) := advance program after found.reverse
  let best := accepted.orElse fun _ => best
  match text with
  | [] => best
  | c :: rest =>
    if moved.isEmpty && best.isSome then best
    else run program start (position + 1) (some c) moved best rest

namespace Regex

/-- the positions of the leftmost match and of its groups -/
def find? (regex : Regex) (text : List Char) : Option Slots :=
  let (program, start) := Program.ofExpression regex.expression
  run program start 0 none [] none text

/-- whether the text has a match -/
def isMatch (regex : Regex) (text : List Char) : Bool := (regex.find? text).isSome

/-- the text between two positions -/
def between (text : List Char) (first last : Nat) : List Char :=
  (text.drop first).take (last - first)

/-- the text of a group, empty if the group took no part in the match -/
def group (text : List Char) (slots : Slots) (number : Nat) : List Char :=
  match slots.at? (2 * number), slots.at? (2 * number + 1) with
  | some first, some last => between text first last
  | _, _ => []

/-- the group that a reference in a template names: a number, or the name of a group -/
def groupNumber? (regex : Regex) (reference : List Char) : Option Nat :=
  let digits := match reference with
    | '+' :: rest => rest
    | _ => reference
  if !digits.isEmpty && digits.all Letter.isAsciiDigit then
    some (digits.foldl (fun n c => n * 10 + (c.toNat - 48)) 0)
  else (regex.groups.names.find? (·.1 = String.ofList reference)).map (·.2)

/-- whether the character belongs to a reference without braces -/
def isReference (c : Char) : Bool := Letter.isAsciiLetter c || Letter.isAsciiDigit c || c = '_'

/-- a template filled in: `$name`, `$1` and the same in braces stand for groups, `$$` for `$`, and
unknown groups for nothing; `fuel` bounds the number of steps -/
def fill (regex : Regex) (text : List Char) (slots : Slots) : (fuel : Nat) → List Char → List Char
  | 0, rest => rest
  | _, [] => []
  | fuel + 1, '$' :: '$' :: rest => '$' :: fill regex text slots fuel rest
  | fuel + 1, '$' :: '\x7b' :: rest =>
    let name := rest.takeWhile (· ≠ '\x7d')
    match rest.drop name.length with
    | [] => '$' :: fill regex text slots fuel ('\x7b' :: rest)
    | _ :: after => filled name ++ fill regex text slots fuel after
  | fuel + 1, '$' :: rest =>
    let name := rest.takeWhile isReference
    if name.isEmpty then '$' :: fill regex text slots fuel rest
    else filled name ++ fill regex text slots fuel (rest.drop name.length)
  | fuel + 1, c :: rest => c :: fill regex text slots fuel rest
where
  /-- the text that a reference stands for -/
  filled (name : List Char) : List Char :=
    match regex.groupNumber? name with
    | some number => group text slots number
    | none => []

/-- the text with its leftmost match replaced by a template -/
def replaceFirst (regex : Regex) (text template : List Char) : List Char :=
  match regex.find? text with
  | none => text
  | some slots =>
    match slots.at? 0, slots.at? 1 with
    | some first, some last =>
      text.take first ++ regex.fill text slots (template.length + 1) template ++ text.drop last
    | _, _ => text

end Regex

end TableRecipe.Pattern
