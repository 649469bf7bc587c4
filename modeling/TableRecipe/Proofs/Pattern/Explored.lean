import TableRecipe.Proofs.Pattern.Matcher
import TableRecipe.Proofs.Pattern.Spans

/-!
# Searching with programs

A search follows all ways through a program side by side and enters each instruction once at each
spot. No way is lost by that: what has been entered is closed under the ways that need no character,
and so a search finds a match if and only if some way leads to one.

* `Leads` — the ways that need no character;
* `Explored` — what has been entered is closed, up to what is pending;
* `isSome_run` — a program finds a match if and only if it accepts from some spot on;
* `Regex.isMatch_iff_spans` — a text has a match if and only if the expression spans a part of it.
-/

namespace TableRecipe.Pattern

variable {program : Program} {place next : Nat} {spot : Spot} {chars : CharSet} {c : Char}
  {passed rest : List Char} {thread : Thread} {threads pending pending' found : List Thread}
  {entered : List Nat}

/-! ## Ways that need no character -/

/-- an instruction leads to another one without a character -/
inductive Leads (program : Program) (spot : Spot) : (place next : Nat) → Prop where
  /-- the preferred way -/
  | preferred {place first other : Nat} (hat : program[place]? = some (.split first other)) :
    Leads program spot place first
  /-- the other way -/
  | other {place first other : Nat} (hat : program[place]? = some (.split first other)) :
    Leads program spot place other
  /-- a position is remembered -/
  | save {place slot next : Nat} (hat : program[place]? = some (.save slot next)) :
    Leads program spot place next
  /-- a condition that holds -/
  | check {place next : Nat} {assertion : Assertion}
    (hat : program[place]? = some (.check assertion next))
    (hholds : assertion.holds spot.passed.head? spot.rest.head?) : Leads program spot place next

/-- whether an instruction leads to a match of the text at a spot -/
def Leading (program : Program) (spot : Spot) (place : Nat) : Prop :=
  ∃ steps, Accepts program steps place spot

theorem Leads.leading (h : Leads program spot place next) (hnext : Leading program spot next) :
    Leading program spot place := by
  obtain ⟨steps, hnext⟩ := hnext
  cases h with
  | preferred hat => exact ⟨_, .preferred hat hnext⟩
  | other hat => exact ⟨_, .other hat hnext⟩
  | save hat => exact ⟨_, .save hat hnext⟩
  | check hat hholds => exact ⟨_, .check hat hholds hnext⟩

/-- Where a match is led to, an instruction that waits is come to first. -/
theorem Leading.exists_waits (h : Leading program spot place) {closed : Nat → Prop}
    (hplace : closed place)
    (hclosed : ∀ place, closed place → ∀ next, Leads program spot place next → closed next) :
    ∃ last, closed last ∧ Waits program last ∧ Leading program spot last := by
  obtain ⟨steps, h⟩ := h
  induction h with
  | accept hat => exact ⟨_, hplace, .inl hat, _, .accept hat⟩
  | read hat hc hnext => exact ⟨_, hplace, .inr ⟨_, _, hat⟩, _, .read hat hc hnext⟩
  | preferred hat _ ih => exact ih (hclosed _ hplace _ (.preferred hat)) hclosed
  | other hat _ ih => exact ih (hclosed _ hplace _ (.other hat)) hclosed
  | save hat _ ih => exact ih (hclosed _ hplace _ (.save hat)) hclosed
  | check hat hholds _ ih => exact ih (hclosed _ hplace _ (.check hat hholds)) hclosed

/-- An instruction that reads leads to a match behind the next character. -/
theorem leading_read_iff (hat : program[place]? = some (.read chars next)) :
    Leading program ⟨passed, rest⟩ place ↔
      ∃ c more, rest = c :: more ∧ chars.contains c ∧ Leading program ⟨c :: passed, more⟩ next := by
  refine ⟨?_, ?_⟩
  · rintro ⟨steps, h⟩
    cases h with
    | read hread hc hnext =>
      rw [hat] at hread
      cases hread
      exact ⟨_, _, rfl, hc, _, hnext⟩
    | accept hother | preferred hother | other hother | save hother | check hother =>
      rw [hat] at hother
      cases hother
  · rintro ⟨c, more, rfl, hc, steps, hnext⟩
    exact ⟨_, .read hat hc hnext⟩

/-! ## Following -/

/-- whether an instruction is the next one of some thread -/
def IsAmong (place : Nat) (threads : List Thread) : Prop := ∃ thread ∈ threads, thread.1 = place

@[simp] theorem isAmong_cons : IsAmong place (thread :: threads) ↔
    thread.1 = place ∨ IsAmong place threads := by
  simp [IsAmong]

@[simp] theorem isAmong_append {more : List Thread} : IsAmong place (threads ++ more) ↔
    IsAmong place threads ∨ IsAmong place more := by
  simp [IsAmong, or_and_right, exists_or]

@[simp] theorem not_isAmong_nil : ¬IsAmong place [] := by
  simp [IsAmong]

/-- the threads to which one leads without a character -/
def ways (spot : Spot) (position : Nat) (slots : Slots) : Option Instruction → List Thread
  | some (.split preferred other) => [(preferred, slots), (other, slots)]
  | some (.save slot next) => [(next, (slot, position) :: slots)]
  | some (.check assertion next) =>
    if assertion.holds spot.passed.head? spot.rest.head? then [(next, slots)] else []
  | _ => []

/-- a thread itself, if it waits for a character or accepts -/
def waiters (thread : Thread) : Option Instruction → List Thread
  | some .accept | some (.read _ _) => [thread]
  | _ => []

theorem leads_iff (position : Nat) (slots : Slots) : Leads program spot place next ↔
    IsAmong next (ways spot position slots program[place]?) := by
  refine ⟨?_, ?_⟩
  · intro h
    cases h with
    | preferred hat | other hat | save hat => simp [hat, ways]
    | check hat hholds => simp [hat, ways, hholds]
  · intro h
    rcases hat : program[place]? with _ | _ | _ | ⟨preferred, other⟩ | ⟨slot, target⟩ |
      ⟨assertion, target⟩ <;> rw [hat] at h
    · cases not_isAmong_nil h
    · cases not_isAmong_nil h
    · cases not_isAmong_nil h
    · obtain rfl | rfl : preferred = next ∨ other = next := by simpa [ways] using h
      · exact .preferred hat
      · exact .other hat
    · obtain rfl : target = next := by simpa [ways] using h
      exact .save hat
    · rw [ways] at h
      split at h
      · next hholds =>
        obtain rfl : target = next := by simpa using h
        exact .check hat hholds
      · cases not_isAmong_nil h

theorem isAmong_waiters {slots : Slots} (h : Waits program place) :
    IsAmong place (waiters (place, slots) program[place]?) := by
  obtain hat | ⟨chars, next, hat⟩ := h <;> simp [hat, waiters]

theorem eq_of_isAmong_waiters {slots : Slots} {instruction : Option Instruction}
    (h : IsAmong next (waiters (place, slots) instruction)) : next = place := by
  unfold waiters at h
  split at h
  · simpa [eq_comm] using h
  · simpa [eq_comm] using h
  · cases not_isAmong_nil h

/-- Following a thread at an instruction not entered before. -/
theorem follow_cons (position fuel : Nat) {slots : Slots} (hentered : place ∉ entered) :
    follow program position spot.passed.head? spot.rest.head? (fuel + 1)
        ((place, slots) :: pending) entered found =
      follow program position spot.passed.head? spot.rest.head? fuel
        (ways spot position slots program[place]? ++ pending) (place :: entered)
        (waiters (place, slots) program[place]? ++ found) := by
  rw [follow, if_neg (by simpa using hentered)]
  rcases program[place]? with _ | _ | _ | _ | _ | ⟨assertion, target⟩
  · rfl
  · rfl
  · rfl
  · rfl
  · rfl
  · dsimp only [ways]
    split <;> rfl

/-- what has been entered, found and left pending when threads are followed from `starts` -/
structure Explored (program : Program) (spot : Spot) (starts : Nat → Prop) (pending : List Thread)
    (entered : List Nat) (found : List Thread) : Prop where
  /-- what is entered leads to what is entered, too, or pending -/
  closed : ∀ place ∈ entered, ∀ next, Leads program spot place next →
    next ∈ entered ∨ IsAmong next pending
  /-- the starts are entered or pending -/
  begun : ∀ place, starts place → place ∈ entered ∨ IsAmong place pending
  /-- what is entered and waits is found -/
  waiting : ∀ place ∈ entered, Waits program place → IsAmong place found
  /-- what is pending or found leads to no match unless a start does -/
  reached : ∀ place, IsAmong place pending ∨ IsAmong place found → Leading program spot place →
    ∃ start, starts start ∧ Leading program spot start

variable {starts : Nat → Prop}

/-- A thread at an instruction entered before can be dropped. -/
theorem Explored.drop (h : Explored program spot starts (thread :: pending) entered found)
    (hentered : thread.1 ∈ entered) : Explored program spot starts pending entered found where
  closed := by
    intro place hplace next hleads
    obtain hnext | hnext := h.closed place hplace next hleads
    · exact .inl hnext
    · exact (isAmong_cons.mp hnext).imp_left fun heq : thread.1 = next => heq ▸ hentered
  begun := by
    intro place hstart
    obtain hplace | hplace := h.begun place hstart
    · exact .inl hplace
    · exact (isAmong_cons.mp hplace).imp_left fun heq : thread.1 = place => heq ▸ hentered
  waiting := h.waiting
  reached := fun place hplace => h.reached place (hplace.imp_left fun h => isAmong_cons.mpr (.inr h))

/-- An instruction is entered: what it leads to becomes pending, and it is found if it waits. -/
theorem Explored.enter (ways more : List Thread)
    (h : Explored program spot starts (thread :: pending) entered found)
    (hways : ∀ next, Leads program spot thread.1 next ↔ IsAmong next ways)
    (hmore : ∀ place, IsAmong place more → place = thread.1)
    (hwaits : Waits program thread.1 → IsAmong thread.1 more) :
    Explored program spot starts (ways ++ pending) (thread.1 :: entered) (more ++ found) where
  closed := by
    intro place hplace next hleads
    obtain rfl | hplace := List.mem_cons.mp hplace
    · exact .inr (isAmong_append.mpr (.inl ((hways next).mp hleads)))
    · obtain hnext | hnext := h.closed place hplace next hleads
      · exact .inl (List.mem_cons_of_mem _ hnext)
      · obtain rfl | hnext := isAmong_cons.mp hnext
        · exact .inl List.mem_cons_self
        · exact .inr (isAmong_append.mpr (.inr hnext))
  begun := by
    intro place hstart
    obtain hplace | hplace := h.begun place hstart
    · exact .inl (List.mem_cons_of_mem _ hplace)
    · obtain rfl | hplace := isAmong_cons.mp hplace
      · exact .inl List.mem_cons_self
      · exact .inr (isAmong_append.mpr (.inr hplace))
  waiting := by
    intro place hplace hwaiting
    obtain rfl | hplace := List.mem_cons.mp hplace
    · exact isAmong_append.mpr (.inl (hwaits hwaiting))
    · exact isAmong_append.mpr (.inr (h.waiting place hplace hwaiting))
  reached := by
    have hhere := h.reached thread.1 (.inl (isAmong_cons.mpr (.inl rfl)))
    rintro place (hplace | hplace) hleading
    · obtain hplace | hplace := isAmong_append.mp hplace
      · exact hhere (((hways place).mpr hplace).leading hleading)
      · exact h.reached place (.inl (isAmong_cons.mpr (.inr hplace))) hleading
    · obtain hplace | hplace := isAmong_append.mp hplace
      · obtain rfl := hmore place hplace
        exact hhere hleading
      · exact h.reached place (.inr hplace) hleading

/-- the number of instructions not entered yet -/
def unentered (program : Program) (entered : List Nat) : Nat :=
  ((List.range program.size).filter (· ∉ entered)).length

theorem unentered_cons_le : unentered program (place :: entered) ≤ unentered program entered := by
  refine (List.monotone_filter_right _ fun other hother => ?_).length_le
  simp only [List.mem_cons, not_or, decide_eq_true_eq] at hother ⊢
  exact hother.2

theorem unentered_cons_lt (hplace : place < program.size) (hentered : place ∉ entered) :
    unentered program (place :: entered) < unentered program entered := by
  have hfilter : (List.range program.size).filter (· ∉ place :: entered) =
      ((List.range program.size).filter (· ∉ entered)).filter (· ≠ place) := by
    rw [List.filter_filter]
    simp
  rw [unentered, hfilter]
  refine List.length_filter_lt_length_iff_exists.mpr ⟨place, ?_, by simp⟩
  simpa using ⟨hplace, hentered⟩

/-- An instruction has at most two ways, and one outside of the program none. -/
theorem length_ways_add_le (position : Nat) (slots : Slots) (hentered : place ∉ entered) :
    (ways spot position slots program[place]?).length +
        2 * unentered program (place :: entered) ≤ 2 * unentered program entered := by
  rcases hat : program[place]? with _ | instruction
  · have hmost := @unentered_cons_le program place entered
    simp only [ways, List.length_nil]
    omega
  · have hless := unentered_cons_lt (Array.getElem?_eq_some_iff.mp hat).1 hentered
    have htwo : (ways spot position slots (some instruction)).length ≤ 2 := by
      cases instruction <;> simp only [ways, List.length_cons, List.length_nil] <;> try omega
      split <;> simp
    omega

/-- Following threads leaves nothing pending. -/
theorem explored_follow (position fuel : Nat)
    (h : Explored program spot starts pending entered found)
    (hfuel : pending.length + 2 * unentered program entered ≤ fuel) :
    Explored program spot starts []
      (follow program position spot.passed.head? spot.rest.head? fuel pending entered found).1
      (follow program position spot.passed.head? spot.rest.head? fuel pending entered found).2 := by
  induction fuel generalizing pending entered found with
  | zero =>
    obtain rfl := List.eq_nil_of_length_eq_zero (Nat.le_zero.mp (Nat.le_of_add_right_le hfuel))
    exact h
  | succ fuel ih =>
    cases pending with
    | nil => exact h
    | cons thread pending =>
      obtain ⟨place, slots⟩ := thread
      rw [List.length_cons] at hfuel
      by_cases hentered : place ∈ entered
      · rw [follow, if_pos (by simpa using hentered)]
        exact ih (h.drop hentered) (by omega)
      · -- the ways are paid for by the instruction that is entered
        have hpaid : (ways spot position slots program[place]?).length +
            2 * unentered program (place :: entered) ≤ 2 * unentered program entered :=
          length_ways_add_le position slots hentered
        rw [follow_cons position fuel hentered]
        refine ih (h.enter _ _ (fun next => leads_iff position slots)
          (fun next => eq_of_isAmong_waiters) isAmong_waiters) ?_
        rw [List.length_append]
        omega

/-! ## Searching -/

/-- Moving threads over a character: some thread that waits leads to a match if and only if one of
them accepts or what they lead to behind the character does. -/
theorem leading_advance_iff {text : List Char} :
    (∃ place, IsAmong place threads ∧ Waits program place ∧
        Leading program ⟨passed, text⟩ place) ↔
      (advance program text.head? threads).2.isSome ∨ ∃ c more, text = c :: more ∧
        ∃ target, IsAmong target (advance program text.head? threads).1 ∧
          Leading program ⟨c :: passed, more⟩ target := by
  induction threads with
  | nil => simp [advance]
  | cons thread threads ih =>
    obtain ⟨place, slots⟩ := thread
    have hcons : (∃ other, IsAmong other ((place, slots) :: threads) ∧ Waits program other ∧
          Leading program ⟨passed, text⟩ other) ↔
        (Waits program place ∧ Leading program ⟨passed, text⟩ place) ∨
          ∃ other, IsAmong other threads ∧ Waits program other ∧
            Leading program ⟨passed, text⟩ other := by
      simp [or_and_right, exists_or]
    rw [hcons, ih, advance]
    rcases hat : program[place]? with _ | _ | ⟨chars, target⟩ | _ | _ | _
    · simp [Waits, hat]
    · have hhere : Leading program ⟨passed, text⟩ place := ⟨0, .accept hat⟩
      simp [Waits, hat, hhere]
    · rw [leading_read_iff hat]
      cases text with
      | nil => simp [Waits, hat]
      | cons c more =>
        by_cases hc : chars.contains c
        · simp [Waits, hat, hc, or_and_right, exists_or, or_left_comm]
        · simp [Waits, hat, hc]
    all_goals simp [Waits, hat]

/-- What is found when threads are followed leads to a match if and only if one of them does. -/
theorem leading_follow_iff (position : Nat) :
    (∃ place, IsAmong place (follow program position spot.passed.head? spot.rest.head?
        (3 * program.size + threads.length + 3) threads [] []).2.reverse ∧
          Waits program place ∧ Leading program spot place) ↔
      ∃ place, IsAmong place threads ∧ Leading program spot place := by
  have hstart : Explored program spot (IsAmong · threads) threads [] [] :=
    ⟨nofun, fun place => .inr, nofun, fun place hplace hleading =>
      ⟨place, by simpa using hplace, hleading⟩⟩
  have hunentered : unentered program [] = program.size := by simp [unentered]
  have hdone := explored_follow position (3 * program.size + threads.length + 3) hstart
    (by omega)
  refine ⟨?_, ?_⟩
  · rintro ⟨place, hplace, -, hleading⟩
    refine hdone.reached place (.inr ?_) hleading
    simpa [IsAmong] using hplace
  · rintro ⟨place, hplace, hleading⟩
    have hentered := (hdone.begun place hplace).resolve_right not_isAmong_nil
    obtain ⟨last, hlast, hwaits, hleads⟩ := hleading.exists_waits hentered
      fun place hplace next hnext => (hdone.closed place hplace next hnext).resolve_right
        not_isAmong_nil
    refine ⟨last, ?_, hwaits, hleads⟩
    simpa [IsAmong] using hdone.waiting last hlast hwaits

/-- A match that has been found is not lost. -/
theorem isSome_run_of_best {start position : Nat} {before : Option Char} {best : Option Slots}
    {text : List Char} (hbest : best.isSome) :
    (run program start position before threads best text).isSome := by
  induction text generalizing position before threads best with
  | nil =>
    rw [run]
    simp [hbest, Option.isSome_or]
  | cons c rest ih =>
    have hbetter (accepted : Option Slots) : (accepted.orElse fun _ => best).isSome := by
      cases accepted with
      | none => exact hbest
      | some => rfl
    rw [run, if_neg (by simpa [Option.isSome_iff_ne_none] using hbest)]
    dsimp only
    split
    · exact hbetter _
    · exact ih (hbetter _)

/-- the threads behind the next character, and what an accepting thread remembers, if there is no
match yet -/
def searched (program : Program) (start position : Nat) (before : Option Char)
    (threads : List Thread) (text : List Char) : List Thread × Option Slots :=
  let pending := threads ++ [(start, [])]
  let found := (follow program position before text.head? (3 * program.size + pending.length + 3)
    pending [] []).2
  advance program text.head? found.reverse

theorem run_nil {start position : Nat} {before : Option Char} :
    run program start position before threads none [] =
      (searched program start position before threads []).2 := by
  rw [run]
  simp [searched]

theorem run_cons {start position : Nat} {before : Option Char} :
    run program start position before threads none (c :: rest) =
      let moved := searched program start position before threads (c :: rest)
      if moved.1.isEmpty && moved.2.isSome then moved.2
      else run program start (position + 1) (some c) moved.1 moved.2 rest := by
  rw [run]
  simp [searched]

/-- A search from a spot finds a match there or goes on behind the next character. -/
theorem searched_iff {start position : Nat} {text : List Char} :
    (∃ place, IsAmong place threads ∧ Leading program ⟨passed, text⟩ place) ∨
        Leading program ⟨passed, text⟩ start ↔
      (searched program start position passed.head? threads text).2.isSome ∨
        ∃ c more, text = c :: more ∧ ∃ target,
          IsAmong target (searched program start position passed.head? threads text).1 ∧
            Leading program ⟨c :: passed, more⟩ target := by
  have hfollow := @leading_follow_iff program ⟨passed, text⟩ (threads ++ [(start, [])]) position
  rw [searched, ← leading_advance_iff, hfollow]
  simp [or_and_right, exists_or]

/-- A match further on is one here or one behind the next character. -/
theorem exists_skipped_cons_iff {start : Nat} :
    (∃ skipped more, c :: rest = skipped ++ more ∧
        Leading program ⟨skipped.reverse ++ passed, more⟩ start) ↔
      Leading program ⟨passed, c :: rest⟩ start ∨ ∃ skipped more, rest = skipped ++ more ∧
        Leading program ⟨skipped.reverse ++ c :: passed, more⟩ start := by
  refine ⟨?_, ?_⟩
  · rintro ⟨_ | ⟨first, skipped⟩, more, hmore, hstart⟩
    · obtain rfl : c :: rest = more := hmore
      exact .inl hstart
    · obtain ⟨rfl, rfl⟩ := List.cons.inj hmore
      exact .inr ⟨skipped, more, rfl, by simpa using hstart⟩
  · rintro (hstart | ⟨skipped, more, rfl, hstart⟩)
    · exact ⟨[], c :: rest, rfl, hstart⟩
    · exact ⟨c :: skipped, more, rfl, by simpa using hstart⟩

/-- **Searching.** A program finds a match if and only if some thread leads to one, or the program
from some spot on. -/
theorem isSome_run {start position : Nat} {text : List Char} :
    (run program start position passed.head? threads none text).isSome ↔
      (∃ place, IsAmong place threads ∧ Leading program ⟨passed, text⟩ place) ∨
        ∃ skipped rest, text = skipped ++ rest ∧
          Leading program ⟨skipped.reverse ++ passed, rest⟩ start := by
  induction text generalizing passed threads position with
  | nil =>
    have hsearched := @searched_iff program passed threads start position []
    rw [run_nil]
    simpa using hsearched.symm
  | cons c rest ih =>
    have hsearched := @searched_iff program passed threads start position (c :: rest)
    rw [exists_skipped_cons_iff, ← or_assoc, hsearched, run_cons]
    -- once a thread accepts, what follows can only be a better match
    rcases haccepted : (searched program start position passed.head? threads (c :: rest)).2 with
      _ | slots
    · have hrest := @ih (c :: passed)
        (searched program start position passed.head? threads (c :: rest)).1 (position + 1)
      simp only [haccepted, Option.isSome_none, Bool.and_false, Bool.false_eq_true, if_false,
        false_or]
      rw [← List.head?_cons (a := c) (l := passed), hrest]
      simp
    · simp only [haccepted, Option.isSome_some, Bool.and_true, true_or, iff_true]
      split
      · rfl
      · exact isSome_run_of_best rfl

/-- **Matches.** A text has a match if and only if the expression spans a part of it. -/
theorem Regex.isMatch_iff_spans {regex : Regex} {text : List Char} :
    regex.isMatch text ↔ ∃ skipped rest, text = skipped ++ rest ∧
      ∃ there, regex.expression.Spans ⟨skipped.reverse, rest⟩ there := by
  have hrun := @isSome_run (Program.ofExpression regex.expression).1 [] []
    (Program.ofExpression regex.expression).2 0 text
  simp only [not_isAmong_nil, false_and, exists_false, false_or, List.append_nil, Leading,
    Program.accepts_ofExpression] at hrun
  exact hrun

end TableRecipe.Pattern
