import Mathlib.Algebra.Ring.Nat
import TableRecipe.Proofs.Pattern.Moves

/-!
# Patterns in parts

Translations write patterns in parts: escaped characters, and characters or texts without
restriction. Such a pattern is read back part by part, whatever characters it is made of.

* `Part` — a part, with `Part.text`, its written form, and `Part.items`, what is read from parts;
* `readSequence_parts` — reading parts;
* `read?_anyCaseText`, `read?_lineText` — reading whole patterns;
* `states_anyCaseText`, `states_lineText` — their sizes.
-/

namespace TableRecipe.Pattern

/-- a part of a pattern -/
inductive Part where
  /-- a character that stands for itself -/
  | literal (c : Char)
  /-- any character -/
  | any
  /-- any text -/
  | many
  /-- any text, as a group -/
  | group
  deriving DecidableEq

namespace Part

/-- the written form of a part -/
def text : Part → List Char
  | literal c => escape [c]
  | any => ['.']
  | many => ['.', '*']
  | group => ['(', '.', '*', ')']

/-- the characters that a part consists of -/
def chars (flags : Flags) : Part → CharSet
  | literal c => foldCase flags (.single c)
  | any | many | group => dotSet flags

/-- what is read from a part, `number` being the number of the next group -/
def item (flags : Flags) (number : Nat) (part : Part) : Expression :=
  match part with
  | literal _ | any => .set (part.chars flags)
  | many => .times 0 none true (.set (part.chars flags))
  | group => .capture number (.times 0 none true (.set (part.chars flags)))

/-- the number of groups of a part -/
def groups : Part → Nat
  | group => 1
  | _ => 0

/-- what is read from parts, their groups numbered from `number` on -/
def items (flags : Flags) : (number : Nat) → List Part → List Expression
  | _, [] => []
  | number, part :: parts => part.item flags number :: items flags (number + part.groups) parts

/-- the steps that reading a part takes -/
def steps : Part → Nat
  | many => 2
  | _ => 1

end Part

/-! ## Reading -/

/-- whether flags leave the syntax of patterns and the greed of repetitions as they are -/
structure Flags.Plain (flags : Flags) : Prop where
  /-- `.` may be written -/
  unicode : flags.unicode = true
  /-- blanks count -/
  verbose : flags.verbose = false
  /-- repetitions are greedy -/
  swapGreed : flags.swapGreed = false
  /-- anchors stand for the ends of the text -/
  multiLine : flags.multiLine = false

theorem skipVerbose_eq {flags : Flags} (h : flags.Plain) (rest : List Char) :
    skipVerbose flags rest = rest := by
  cases rest <;> simp [skipVerbose, h.verbose]

/-- the state after parts have been read -/
def State.after (state : State) (parts : List Part) : State where
  flags := state.flags
  groups := { state.groups with count := state.groups.count + (parts.map Part.groups).sum }
  items := ((Part.items state.flags (state.groups.count + 1) parts).map some).reverse ++ state.items

variable {fuel depth : Nat} {state : State} {rest : List Char}

theorem State.after_cons (part : Part) (parts : List Part) :
    state.after (part :: parts) = (state.after [part]).after parts := by
  simp [after, Part.items, Nat.add_assoc, Nat.add_comm, Nat.add_left_comm]

/-- What may mean something else is written with a backslash, before which all of it stands for
itself. -/
theorem isPunctuation_of_isMeta {c : Char} (h : isMeta c = true) : isPunctuation c = true := by
  have hall : "\\.+*?()|[]\x7b\x7d^$#&-~".toList.all isPunctuation = true := by decide +kernel
  exact List.all_eq_true.mp hall c (by simpa [isMeta] using h)

theorem readSequence_literal (h : state.flags.Plain) (c : Char) :
    readSequence (fuel + 1) depth state (escape [c] ++ rest) =
      readSequence fuel depth (state.after [.literal c]) rest := by
  rw [readSequence]
  simp only [skipVerbose_eq h]
  by_cases hmeta : isMeta c
  · simp [escape, hmeta, readEscape, isPunctuation_of_isMeta hmeta, State.after, Part.items,
      Part.item, Part.chars, Part.groups]
  · simp only [escape, List.flatMap_singleton, hmeta, Bool.false_eq_true, if_false,
      List.singleton_append]
    simp only [isMeta, List.contains_eq_mem] at hmeta
    split <;> simp_all [State.after, Part.items, Part.item, Part.chars, Part.groups]

theorem readSequence_any (h : state.flags.Plain) :
    readSequence (fuel + 1) depth state ('.' :: rest) =
      readSequence fuel depth (state.after [.any]) rest := by
  rw [readSequence]
  simp [skipVerbose_eq h, h.unicode, State.after, Part.items, Part.item, Part.chars, Part.groups]

/-- A question mark behind the star would make the repetition lazy. -/
theorem readSequence_many (h : state.flags.Plain) (hrest : rest.head? ≠ some '?') :
    readSequence (fuel + 2) depth state ('.' :: '*' :: rest) =
      readSequence fuel depth (state.after [.many]) rest := by
  have hrepeat (item : Expression) : repeatItem state.flags 0 none item rest =
      (.times 0 none true item, rest) := by
    rw [repeatItem.eq_2 _ _ _ _ _ fun more hmore => hrest (by rw [hmore]; rfl), h.swapGreed]
    rfl
  rw [readSequence_any h, readSequence]
  simp [skipVerbose_eq, h, repeatLast, hrepeat, State.after, Part.items, Part.item, Part.chars,
    Part.groups]

/-- A sequence ends at a closing parenthesis. -/
theorem readSequence_closing (h : state.flags.Plain) :
    readSequence (fuel + 1) depth state (')' :: rest) = some (state, ')' :: rest) := by
  rw [readSequence]
  simp [skipVerbose_eq h]

/-- Where no bar follows, a sequence is the only alternative. -/
theorem readAlternatives_eq {done : State} {behind : List Char} (hbehind : behind.head? ≠ some '|')
    (h : readSequence fuel depth { state with items := [] } rest = some (done, behind)) :
    readAlternatives (fuel + 1) depth state rest = some (done.sequence, done, behind) := by
  rw [readAlternatives, h, Option.bind_eq_bind, Option.bind_some]
  dsimp only
  split
  · exact absurd rfl hbehind
  · rfl

/-- A group is read on its own. -/
theorem readSequence_opening (h : state.flags.Plain) :
    readSequence (fuel + 1) (depth + 1) state ('(' :: rest) =
      (readGroup fuel depth state rest).bind fun (item, after, rest) =>
        readSequence fuel (depth + 1) { after with items := item :: after.items } rest := by
  rw [readSequence]
  simp only [skipVerbose_eq h]
  rfl

theorem readSequence_group (h : state.flags.Plain) :
    readSequence (fuel + 6) (depth + 1) state ('(' :: '.' :: '*' :: ')' :: rest) =
      readSequence (fuel + 5) (depth + 1) (state.after [.group]) rest := by
  have hinside (state : State) (h : state.flags.Plain) :
      readSequence (fuel + 3) depth state ('.' :: '*' :: ')' :: rest) =
        some (state.after [.many], ')' :: rest) := by
    rw [readSequence_many h (by simp)]
    exact readSequence_closing h
  rw [readSequence_opening h, readGroup]
  · dsimp only
    rw [readAlternatives_eq (by simp) (hinside _ (by exact h))]
    simp [State.after, State.sequence, sequence, Part.items, Part.item, Part.chars, Part.groups]
  all_goals simp

/-- No part begins with what would make a repetition before it lazy. -/
theorem head?_text_ne (part : Part) : (part.text ++ rest).head? ≠ some '?' := by
  cases part with
  | literal c =>
    by_cases hmeta : isMeta c
    · simp [Part.text, escape, hmeta]
    · have hc : c ≠ '?' := by
        rintro rfl
        exact hmeta rfl
      simp [Part.text, escape, hmeta, hc]
  | any | many | group => simp [Part.text]

/-- **Reading parts.** Parts are read one after the other. -/
theorem readSequence_parts (parts : List Part) (h : state.flags.Plain)
    (hrest : rest.head? ≠ some '?') :
    readSequence (fuel + 5 + (parts.map Part.steps).sum) (depth + 1) state
        (parts.flatMap Part.text ++ rest) =
      readSequence (fuel + 5) (depth + 1) (state.after parts) rest := by
  induction parts generalizing state with
  | nil => rfl
  | cons part parts ih =>
    have hbehind : (parts.flatMap Part.text ++ rest).head? ≠ some '?' := by
      cases parts with
      | nil => exact hrest
      | cons other parts =>
        rw [List.flatMap_cons, List.append_assoc]
        exact head?_text_ne other
    have hnext := @ih (state.after [part]) h
    rw [← State.after_cons] at hnext
    rw [← hnext, List.flatMap_cons, List.append_assoc, List.map_cons, List.sum_cons,
      Nat.add_comm part.steps, ← Nat.add_assoc]
    cases part with
    | literal c => exact readSequence_literal h c
    | any => exact readSequence_any h
    | many => exact readSequence_many h hbehind
    | group =>
      obtain ⟨more, hmore⟩ : ∃ more, fuel + 5 + (parts.map Part.steps).sum = more + 5 :=
        ⟨fuel + (parts.map Part.steps).sum, by omega⟩
      rw [hmore]
      exact readSequence_group h

/-- Reading takes no more steps than there are characters. -/
theorem sum_steps_le (parts : List Part) :
    (parts.map Part.steps).sum ≤ (parts.flatMap Part.text).length := by
  induction parts with
  | nil => exact Nat.le_refl 0
  | cons part parts ih =>
    have hpart : part.steps ≤ part.text.length := by
      cases part with
      | literal c => by_cases hmeta : isMeta c <;> simp [Part.steps, Part.text, escape, hmeta]
      | any | many | group => simp [Part.steps, Part.text]
    rw [List.map_cons, List.sum_cons, List.flatMap_cons, List.length_append]
    omega

/-! ## Whole patterns -/

/-- the state after an item has been read -/
def State.push (state : State) (item : Expression) : State :=
  { state with items := some item :: state.items }

theorem readSequence_start (h : state.flags.Plain) :
    readSequence (fuel + 1) depth state ('^' :: rest) =
      readSequence fuel depth (state.push (.check .textStart)) rest := by
  rw [readSequence]
  simp [skipVerbose_eq h, h.multiLine, State.push]

theorem readSequence_end (h : state.flags.Plain) :
    readSequence (fuel + 1) depth state ('$' :: rest) =
      readSequence fuel depth (state.push (.check .textEnd)) rest := by
  rw [readSequence]
  simp [skipVerbose_eq h, h.multiLine, State.push]

theorem readSequence_nil (h : state.flags.Plain) :
    readSequence (fuel + 1) depth state [] = some (state, []) := by
  rw [readSequence]
  simp [skipVerbose_eq h]

theorem plain_default : Flags.Plain {} := ⟨rfl, rfl, rfl, rfl⟩

/-- the state before anything has been read -/
def State.fresh : State where
  flags := {}
  groups := {}
  items := []

/-- A pattern that is one sequence is read unless it is too large. -/
theorem read?_of_sequence {cs : List Char} {steps : Nat} {done : State}
    (hsteps : steps + 6 ≤ 3 * cs.length + 3)
    (h : ∀ fuel, readSequence (fuel + 5 + steps) maxNesting .fresh cs = some (done, [])) :
    read? cs = if done.sequence.states ≤ Expression.maxStates then
      some ⟨done.sequence, done.groups⟩ else none := by
  obtain ⟨fuel, hfuel⟩ := Nat.exists_eq_add_of_le' hsteps
  have hread : readAlternatives (3 * cs.length + 3) maxNesting .fresh cs =
      some (done.sequence, done, []) := by
    rw [hfuel, show fuel + (steps + 6) = fuel + 5 + steps + 1 by omega]
    exact readAlternatives_eq (by simp) (h fuel)
  rw [State.fresh] at hread
  simp [read?, hread]

/-- the flags under which case is ignored, and `.` stands for line ends, too -/
def anyCaseFlags : Flags := { ignoreCase := true, dotAll := true }

theorem plain_anyCaseFlags : anyCaseFlags.Plain := ⟨rfl, rfl, rfl, rfl⟩

/-- parts that stand for a whole text, under the flags for any case -/
def anyCaseText (parts : List Part) : Expression :=
  sequence (.check .textStart :: (Part.items anyCaseFlags 1 parts ++ [.check .textEnd]))

/-- the state after the flags for any case -/
def State.flagged : State := { State.fresh with flags := anyCaseFlags, items := [none] }

/-- the state after parts between anchors, with the flags for any case in front -/
def State.ofAnyCaseText (parts : List Part) : State :=
  ((State.flagged.push (.check .textStart)).after parts).push (.check .textEnd)

theorem sequence_ofAnyCaseText (parts : List Part) :
    (State.ofAnyCaseText parts).sequence = anyCaseText parts := by
  simp [State.ofAnyCaseText, State.flagged, State.fresh, State.sequence, State.push, State.after,
    anyCaseText]

theorem readSequence_anyCaseText (parts : List Part) (fuel : Nat) :
    readSequence (fuel + 5 + (parts.map Part.steps).sum + 2) maxNesting .fresh
        ("(?is)^".toList ++ parts.flatMap Part.text ++ ['$']) =
      some (.ofAnyCaseText parts, []) := by
  have hparts : readSequence (fuel + 5 + (parts.map Part.steps).sum + 1) maxNesting .flagged
      ('^' :: (parts.flatMap Part.text ++ ['$'])) = some (.ofAnyCaseText parts, []) := by
    rw [readSequence_start plain_anyCaseFlags, maxNesting,
      readSequence_parts parts (by exact plain_anyCaseFlags) (by simp),
      readSequence_end (by exact plain_anyCaseFlags)]
    exact readSequence_nil plain_anyCaseFlags
  have hflags : readGroup (fuel + 5 + (parts.map Part.steps).sum + 1) 249 .fresh
      ('?' :: 'i' :: 's' :: ')' :: '^' :: (parts.flatMap Part.text ++ ['$'])) =
      some (none, { State.fresh with flags := anyCaseFlags },
        '^' :: (parts.flatMap Part.text ++ ['$'])) := by
    simp [readGroup, readFlags, setFlag?, anyCaseFlags, State.fresh]
  show readSequence _ _ _ ('(' :: '?' :: 'i' :: 's' :: ')' :: '^' ::
    (parts.flatMap Part.text ++ ['$'])) = _
  rw [maxNesting, readSequence_opening plain_default, hflags]
  exact hparts

/-- Parts between anchors, with flags in front, are read unless there are too many. -/
theorem read?_anyCaseText (parts : List Part) :
    read? ("(?is)^".toList ++ parts.flatMap Part.text ++ ['$']) =
      if (anyCaseText parts).states ≤ Expression.maxStates then
        some ⟨anyCaseText parts, { count := (parts.map Part.groups).sum }⟩
      else none := by
  have hlength : ("(?is)^".toList ++ parts.flatMap Part.text ++ ['$']).length =
      (parts.flatMap Part.text).length + 7 := by simp
  have hsteps := sum_steps_le parts
  rw [@read?_of_sequence _ ((parts.map Part.steps).sum + 2) _ (by omega)
    (readSequence_anyCaseText parts), sequence_ofAnyCaseText]
  simp [State.ofAnyCaseText, State.flagged, State.fresh, State.push, State.after]

/-- parts that stand for a whole line, in a group without a number -/
def lineText (parts : List Part) : Expression :=
  sequence [.check .textStart, sequence (Part.items {} 1 parts), .check .textEnd]

/-- the state at the start of a line -/
def State.started : State := State.fresh.push (.check .textStart)

/-- the state after parts between anchors, in a group without a number -/
def State.ofLineText (parts : List Part) : State :=
  ({ State.started with groups := (State.fresh.after parts).groups }.push
    (State.fresh.after parts).sequence).push (.check .textEnd)

theorem sequence_ofLineText (parts : List Part) :
    (State.ofLineText parts).sequence = lineText parts := by
  simp [State.ofLineText, State.started, State.fresh, State.sequence, State.push, State.after,
    lineText]

theorem readSequence_lineText (parts : List Part) (fuel : Nat) :
    readSequence (fuel + 5 + (parts.map Part.steps).sum + 4) maxNesting .fresh
        ("^(?:".toList ++ parts.flatMap Part.text ++ ")$".toList) =
      some (.ofLineText parts, []) := by
  have hparts : readSequence (fuel + 5 + (parts.map Part.steps).sum) 249 .fresh
      (parts.flatMap Part.text ++ [')', '$']) = some (State.fresh.after parts, [')', '$']) := by
    rw [readSequence_parts parts plain_default (by simp)]
    exact readSequence_closing plain_default
  have hbody : readAlternatives (fuel + 5 + (parts.map Part.steps).sum + 1) 249 .fresh
      (parts.flatMap Part.text ++ [')', '$']) =
      some ((State.fresh.after parts).sequence, State.fresh.after parts, [')', '$']) :=
    readAlternatives_eq (by simp) hparts
  have hgroup : readGroup (fuel + 5 + (parts.map Part.steps).sum + 2) 249 .started
      ('?' :: ':' :: (parts.flatMap Part.text ++ [')', '$'])) =
      some (some (State.fresh.after parts).sequence,
        { State.started with groups := (State.fresh.after parts).groups }, ['$']) := by
    rw [State.fresh] at hbody
    simp [readGroup, readFlags, State.started, State.push, State.fresh, hbody]
  show readSequence _ _ _ ('^' :: '(' :: '?' :: ':' ::
    (parts.flatMap Part.text ++ [')', '$'])) = _
  rw [readSequence_start plain_default, maxNesting, readSequence_opening plain_default]
  show (readGroup _ _ State.started _).bind _ = _
  rw [hgroup, Option.bind_some]
  dsimp only
  rw [readSequence_end (by exact plain_default)]
  exact readSequence_nil plain_default

/-- Parts between anchors, in a group without a number, are read unless there are too many. -/
theorem read?_lineText (parts : List Part) :
    read? ("^(?:".toList ++ parts.flatMap Part.text ++ ")$".toList) =
      if (lineText parts).states ≤ Expression.maxStates then
        some ⟨lineText parts, { count := (parts.map Part.groups).sum }⟩
      else none := by
  have hlength : ("^(?:".toList ++ parts.flatMap Part.text ++ ")$".toList).length =
      (parts.flatMap Part.text).length + 6 := by simp
  have hsteps := sum_steps_le parts
  rw [@read?_of_sequence _ ((parts.map Part.steps).sum + 4) _ (by omega)
    (readSequence_lineText parts), sequence_ofLineText]
  simp [State.ofLineText, State.started, State.fresh, State.push, State.after]

/-! ## Sizes -/

theorem states_sequence_concat (items : List Expression) (last : Expression) :
    (sequence (items ++ [last])).states = (items.map Expression.states).sum + last.states := by
  induction items with
  | nil => exact (Nat.zero_add _).symm
  | cons item items ih =>
    have hcons : sequence (item :: (items ++ [last])) =
        .andThen item (sequence (items ++ [last])) :=
      sequence.eq_3 item _ (by simp)
    rw [List.cons_append, hcons, Expression.states, ih, List.map_cons, List.sum_cons, Nat.add_assoc]

/-- The size of a part does not depend on its number. -/
theorem states_items (flags : Flags) (number : Nat) (parts : List Part) :
    (Part.items flags number parts).map Expression.states =
      parts.map fun part => (part.item flags 0).states := by
  induction parts generalizing number with
  | nil => rfl
  | cons part parts ih =>
    rw [Part.items, List.map_cons, List.map_cons, ih]
    cases part <;> rfl

theorem states_anyCaseText (parts : List Part) :
    (anyCaseText parts).states =
      (parts.map fun part => (part.item anyCaseFlags 0).states).sum + 2 := by
  rw [anyCaseText, ← List.cons_append, states_sequence_concat, List.map_cons, List.sum_cons,
    states_items]
  simp only [Expression.states]
  omega

theorem states_lineText {parts : List Part} (hparts : parts ≠ []) :
    (lineText parts).states = (parts.map fun part => (part.item {} 0).states).sum + 2 := by
  have hitems : Part.items {} 1 parts ≠ [] := by
    cases parts with
    | nil => exact absurd rfl hparts
    | cons part parts => exact List.cons_ne_nil _ _
  have hinside : (sequence (Part.items {} 1 parts)).states =
      ((Part.items {} 1 parts).map Expression.states).sum := by
    rw [← List.dropLast_concat_getLast hitems, states_sequence_concat]
    simp
  show 1 + ((sequence (Part.items {} 1 parts)).states + 1) = _
  rw [hinside, states_items]
  omega

end TableRecipe.Pattern
