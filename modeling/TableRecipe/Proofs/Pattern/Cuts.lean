import Mathlib.Data.List.Forall2
import TableRecipe.Proofs.Pattern.Compiled
import TableRecipe.Proofs.Pattern.Parts

/-!
# Cutting texts along patterns

A text matches a pattern in parts if it can be cut into texts that the parts stand for. Of several
cuts a search finds the one whose first text is longest, of those the one whose second text is
longest, and so on.

* `Cut`, `Preferred` — a cut, and the one that is found;
* `attempt_isSome_iff`, `attempt_eq_some_iff` — what the moves of parts find;
* `Regex.isMatch_iff`, `Regex.find?_eq_some_iff` — what a search for a whole text finds;
* `group_marks` — the texts of its groups.
-/

namespace TableRecipe.Pattern

variable {flags : Flags} {part : Part} {parts : List Part} {number slot : Nat}
  {slots found : Slots} {passed rest text taken : List Char} {texts : List (List Char)}
  {chars : CharSet} {goal : Goal}

theorem CharSet.contains_single {p c : Char} : (CharSet.single p).contains c = true ↔ c = p := by
  rw [CharSet.single, CharSet.contains, Bool.and_eq_true, decide_eq_true_eq, decide_eq_true_eq,
    ← Char.toNat_inj]
  omega

/-! ## Cuts -/

/-- whether a part stands for a text -/
def Part.Takes (flags : Flags) (part : Part) (text : List Char) : Prop :=
  match part with
  | .literal _ | .any => ∃ c, text = [c] ∧ (part.chars flags).contains c = true
  | .many | .group => ∀ c ∈ text, (part.chars flags).contains c = true

/-- texts that parts stand for make up a text -/
structure Cut (flags : Flags) (parts : List Part) (text : List Char)
    (texts : List (List Char)) : Prop where
  /-- each part stands for its text -/
  takes : List.Forall₂ (Part.Takes flags) parts texts
  /-- together they are the text -/
  joined : text = texts.flatten

/-- the cut whose texts are as long as possible, from the first on -/
structure Preferred (flags : Flags) (parts : List Part) (text : List Char)
    (texts : List (List Char)) : Prop extends Cut flags parts text texts where
  /-- no other cut has a longer text at the first place where the lengths differ -/
  longest : ∀ other, Cut flags parts text other →
    ¬List.Lex (· < ·) (texts.map List.length) (other.map List.length)

theorem cut_nil : Cut flags [] text texts ↔ texts = [] ∧ text = [] := by
  constructor
  · rintro ⟨htakes, rfl⟩
    obtain rfl := List.forall₂_nil_left_iff.mp htakes
    exact ⟨rfl, rfl⟩
  · rintro ⟨rfl, rfl⟩
    exact ⟨.nil, rfl⟩

theorem cut_cons : Cut flags (part :: parts) text texts ↔
    ∃ taken behind others, texts = taken :: others ∧ text = taken ++ behind ∧
      part.Takes flags taken ∧ Cut flags parts behind others := by
  constructor
  · rintro ⟨htakes, rfl⟩
    obtain ⟨taken, others, htaken, hothers, rfl⟩ := List.forall₂_cons_left_iff.mp htakes
    exact ⟨taken, others.flatten, others, rfl, rfl, htaken, hothers, rfl⟩
  · rintro ⟨taken, behind, others, rfl, rfl, htaken, hothers, rfl⟩
    exact ⟨.cons htaken hothers, rfl⟩

theorem exists_cut_cons : (∃ texts, Cut flags (part :: parts) text texts) ↔
    ∃ taken behind, text = taken ++ behind ∧ part.Takes flags taken ∧
      ∃ texts, Cut flags parts behind texts := by
  constructor
  · rintro ⟨_, h⟩
    obtain ⟨taken, behind, others, rfl, hsplit, htaken, hothers⟩ := cut_cons.mp h
    exact ⟨taken, behind, hsplit, htaken, others, hothers⟩
  · rintro ⟨taken, behind, hsplit, htaken, others, hothers⟩
    exact ⟨taken :: others, cut_cons.mpr ⟨taken, behind, others, rfl, hsplit, htaken, hothers⟩⟩

theorem preferred_nil : Preferred flags [] text texts ↔ texts = [] ∧ text = [] := by
  constructor
  · exact fun h => cut_nil.mp h.toCut
  · rintro ⟨rfl, rfl⟩
    refine ⟨cut_nil.mpr ⟨rfl, rfl⟩, fun other hother => ?_⟩
    rw [(cut_nil.mp hother).1]
    exact List.not_lex_nil

/-- The first text is as long as possible, and so are the others. -/
theorem preferred_cons : Preferred flags (part :: parts) text (taken :: texts) ↔
    part.Takes flags taken ∧ text = taken ++ texts.flatten ∧
      Preferred flags parts texts.flatten texts ∧
      ∀ longer behind, text = longer ++ behind → part.Takes flags longer →
        taken.length < longer.length → ¬∃ texts, Cut flags parts behind texts := by
  constructor
  · rintro ⟨⟨htakes, hjoined⟩, hlongest⟩
    obtain ⟨htaken, htexts⟩ := List.forall₂_cons.mp htakes
    refine ⟨htaken, hjoined, ⟨⟨htexts, rfl⟩, fun other hother hless => ?_⟩, ?_⟩
    · have hcut : Cut flags (part :: parts) text (taken :: other) :=
        ⟨.cons htaken hother.takes, by
          rw [hjoined, List.flatten_cons, List.flatten_cons, ← hother.joined]⟩
      exact hlongest _ hcut (.cons hless)
    · rintro longer _ hsplit hlonger hlength ⟨other, hother, rfl⟩
      exact hlongest (longer :: other) ⟨.cons hlonger hother, hsplit⟩ (.rel hlength)
  · rintro ⟨htaken, hjoined, ⟨⟨htexts, -⟩, hlongest⟩, hnone⟩
    refine ⟨⟨.cons htaken htexts, hjoined⟩, ?_⟩
    rintro _ ⟨htakes, hsplit⟩ hless
    obtain ⟨first, other, hfirst, hother, rfl⟩ := List.forall₂_cons_left_iff.mp htakes
    obtain hlength | ⟨hlength, hless⟩ := List.cons_lex_cons_iff.mp hless
    · exact hnone first other.flatten hsplit hfirst hlength ⟨other, hother, rfl⟩
    · have hsame := List.append_inj (hjoined.symm.trans hsplit) hlength
      exact hlongest other ⟨hother, hsame.2⟩ hless

/-! ## What the moves of parts find -/

/-- the moves of a part, `number` being the number of the next group -/
def Part.moves (flags : Flags) (number : Nat) (part : Part) : List Move :=
  match part with
  | .literal _ | .any => [.read (part.chars flags)]
  | .many => [.many (part.chars flags)]
  | .group => [.save (2 * number), .many (part.chars flags), .save (2 * number + 1)]

/-- the moves of parts up to the end of the text, their groups numbered from `number` on -/
def Part.movesToEnd (flags : Flags) : (number : Nat) → List Part → List Move
  | _, [] => [.check .textEnd, .save 1]
  | number, part :: parts =>
    part.moves flags number ++ movesToEnd flags (number + part.groups) parts

/-- The goal is reached behind some characters of the set. -/
theorem longest_isSome_iff : (longest chars goal passed rest).isSome ↔
    ∃ taken behind, rest = taken ++ behind ∧ (∀ c ∈ taken, chars.contains c = true) ∧
      (goal (taken.reverse ++ passed) behind).isSome := by
  induction rest generalizing passed with
  | nil =>
    constructor
    · exact fun h => ⟨[], [], rfl, by simp, h⟩
    · rintro ⟨taken, behind, hsplit, -, h⟩
      obtain ⟨rfl, rfl⟩ := List.append_eq_nil_iff.mp hsplit.symm
      exact h
  | cons c rest ih =>
    rw [longest]
    by_cases hc : chars.contains c = true
    · rw [if_pos hc, Option.isSome_or, Bool.or_eq_true, ih]
      constructor
      · rintro (⟨taken, behind, rfl, htaken, h⟩ | h)
        · exact ⟨c :: taken, behind, rfl, List.forall_mem_cons.mpr ⟨hc, htaken⟩, by simpa using h⟩
        · exact ⟨[], c :: rest, rfl, by simp, h⟩
      · rintro ⟨taken, behind, hsplit, htaken, h⟩
        obtain ⟨rfl, rfl⟩ | ⟨taken, rfl, rfl⟩ := List.cons_eq_append_iff.mp hsplit
        · exact .inr h
        · exact .inl ⟨taken, behind, rfl, (List.forall_mem_cons.mp htaken).2, by simpa using h⟩
    · rw [if_neg hc]
      constructor
      · exact fun h => ⟨[], c :: rest, rfl, by simp, h⟩
      · rintro ⟨taken, behind, hsplit, htaken, h⟩
        obtain ⟨rfl, rfl⟩ | ⟨taken, rfl, rfl⟩ := List.cons_eq_append_iff.mp hsplit
        · exact h
        · exact absurd (htaken c List.mem_cons_self) hc

/-- The goal is reached behind as many characters of the set as possible. -/
theorem longest_eq_some : longest chars goal passed rest = some found ↔
    ∃ taken behind, rest = taken ++ behind ∧ (∀ c ∈ taken, chars.contains c = true) ∧
      goal (taken.reverse ++ passed) behind = some found ∧
      ∀ longer behind, rest = longer ++ behind → (∀ c ∈ longer, chars.contains c = true) →
        taken.length < longer.length → ¬(goal (longer.reverse ++ passed) behind).isSome := by
  induction rest generalizing passed with
  | nil =>
    constructor
    · refine fun h => ⟨[], [], rfl, by simp, h, fun longer behind hsplit _ hlength => ?_⟩
      obtain ⟨rfl, rfl⟩ := List.append_eq_nil_iff.mp hsplit.symm
      exact absurd hlength (Nat.lt_irrefl _)
    · rintro ⟨taken, behind, hsplit, -, h, -⟩
      obtain ⟨rfl, rfl⟩ := List.append_eq_nil_iff.mp hsplit.symm
      exact h
  | cons c rest ih =>
    rw [longest]
    by_cases hc : chars.contains c = true
    · rw [if_pos hc, Option.or_eq_some_iff, ih, ← Option.not_isSome_iff_eq_none, longest_isSome_iff]
      constructor
      · rintro (⟨taken, behind, rfl, htaken, h, hlongest⟩ | ⟨hnone, h⟩)
        · refine ⟨c :: taken, behind, rfl, List.forall_mem_cons.mpr ⟨hc, htaken⟩, by simpa using h,
            fun longer behind hsplit hlonger hlength => ?_⟩
          obtain ⟨rfl, -⟩ | ⟨longer, rfl, hrest⟩ := List.cons_eq_append_iff.mp hsplit
          · cases hlength
          · simpa using hlongest longer behind hrest (List.forall_mem_cons.mp hlonger).2
              (Nat.lt_of_succ_lt_succ hlength)
        · refine ⟨[], c :: rest, rfl, by simp, h,
            fun longer behind hsplit hlonger hlength hgoal => ?_⟩
          obtain ⟨rfl, -⟩ | ⟨longer, rfl, hrest⟩ := List.cons_eq_append_iff.mp hsplit
          · cases hlength
          · exact hnone ⟨longer, behind, hrest, (List.forall_mem_cons.mp hlonger).2,
              by simpa using hgoal⟩
      · rintro ⟨taken, behind, hsplit, htaken, h, hlongest⟩
        have hnot {longer behind : List Char} (hrest : rest = longer ++ behind)
            (hlonger : ∀ c ∈ longer, chars.contains c = true)
            (hlength : taken.length < longer.length + 1) :
            ¬(goal (longer.reverse ++ c :: passed) behind).isSome := by
          simpa using hlongest (c :: longer) behind (congrArg (c :: ·) hrest)
            (List.forall_mem_cons.mpr ⟨hc, hlonger⟩) hlength
        obtain ⟨rfl, rfl⟩ | ⟨taken, rfl, rfl⟩ := List.cons_eq_append_iff.mp hsplit
        · refine .inr ⟨?_, h⟩
          rintro ⟨longer, behind, hrest, hlonger, hgoal⟩
          exact hnot hrest hlonger (Nat.succ_pos _) hgoal
        · exact .inl ⟨taken, behind, rfl, (List.forall_mem_cons.mp htaken).2, by simpa using h,
            fun _ _ hrest hlonger hlength => hnot hrest hlonger (Nat.succ_lt_succ hlength)⟩
    · rw [if_neg hc]
      constructor
      · intro h
        refine ⟨[], c :: rest, rfl, by simp, h, fun longer behind hsplit hlonger hlength => ?_⟩
        obtain ⟨rfl, -⟩ | ⟨longer, rfl, -⟩ := List.cons_eq_append_iff.mp hsplit
        · cases hlength
        · exact absurd (hlonger c List.mem_cons_self) hc
      · rintro ⟨taken, behind, hsplit, htaken, h, -⟩
        obtain ⟨rfl, rfl⟩ | ⟨taken, rfl, rfl⟩ := List.cons_eq_append_iff.mp hsplit
        · exact h
        · exact absurd (htaken c List.mem_cons_self) hc

/-- the positions that a part remembers -/
def Part.marks (number position : Nat) (part : Part) (text : List Char) : Slots :=
  match part with
  | .group => [(2 * number + 1, position + text.length), (2 * number, position)]
  | _ => []

/-- the positions remembered after parts have taken texts, up to the end of the text -/
def marksToEnd : (number position : Nat) → List Part → List (List Char) → Slots → Slots
  | number, position, part :: parts, text :: texts, slots =>
    marksToEnd (number + part.groups) (position + text.length) parts texts
      (part.marks number position text ++ slots)
  | _, position, _, _, slots => (1, position) :: slots

variable {moves : List Move}

/-- A move over one character. -/
theorem attempt_read_eq_some : attempt (.read chars :: moves) slots passed rest = some found ↔
    ∃ c behind, rest = c :: behind ∧ chars.contains c = true ∧
      attempt moves slots (c :: passed) behind = some found := by
  cases rest with
  | nil => simp [attempt]
  | cons c rest => simp [attempt, and_assoc]

/-- A part leads on from behind the texts that it stands for. -/
theorem attempt_part_isSome :
    (attempt (part.moves flags number ++ moves) slots passed rest).isSome ↔
      ∃ taken behind, rest = taken ++ behind ∧ part.Takes flags taken ∧
        (attempt moves [] (taken.reverse ++ passed) behind).isSome := by
  have hone : (attempt (.read (part.chars flags) :: moves) slots passed rest).isSome ↔
      ∃ taken behind, rest = taken ++ behind ∧
        (∃ c, taken = [c] ∧ (part.chars flags).contains c = true) ∧
        (attempt moves [] (taken.reverse ++ passed) behind).isSome := by
    rw [attempt_isSome _ slots []]
    constructor
    · intro h
      obtain ⟨found, h⟩ := Option.isSome_iff_exists.mp h
      obtain ⟨c, behind, rfl, hc, h⟩ := attempt_read_eq_some.mp h
      exact ⟨[c], behind, rfl, ⟨c, rfl, hc⟩, Option.isSome_of_eq_some h⟩
    · rintro ⟨_, behind, rfl, ⟨c, rfl, hc⟩, h⟩
      obtain ⟨found, h⟩ := Option.isSome_iff_exists.mp h
      exact Option.isSome_of_eq_some (attempt_read_eq_some.mpr ⟨c, behind, rfl, hc, h⟩)
  cases part with
  | literal | any => exact hone
  | many =>
    show (longest (dotSet flags) (attempt moves slots) passed rest).isSome ↔ _
    rw [longest_isSome_iff]
    simp only [attempt_isSome moves slots []]
    rfl
  | group =>
    show (longest (dotSet flags) (attempt (.save (2 * number + 1) :: moves)
      ((2 * number, passed.length) :: slots)) passed rest).isSome ↔ _
    rw [longest_isSome_iff]
    simp only [attempt, attempt_isSome moves (_ :: _) []]
    rfl

/-- A part leads on from behind the longest text that it stands for, of those that lead to a
match. -/
theorem attempt_part_eq_some :
    attempt (part.moves flags number ++ moves) slots passed rest = some found ↔
      ∃ taken behind, rest = taken ++ behind ∧ part.Takes flags taken ∧
        attempt moves (part.marks number passed.length taken ++ slots) (taken.reverse ++ passed)
          behind = some found ∧
        ∀ longer behind, rest = longer ++ behind → part.Takes flags longer →
          taken.length < longer.length →
            ¬(attempt moves [] (longer.reverse ++ passed) behind).isSome := by
  have hone : attempt (.read (part.chars flags) :: moves) slots passed rest = some found ↔
      ∃ taken behind, rest = taken ++ behind ∧
        (∃ c, taken = [c] ∧ (part.chars flags).contains c = true) ∧
        attempt moves slots (taken.reverse ++ passed) behind = some found ∧
        ∀ longer behind, rest = longer ++ behind →
          (∃ c, longer = [c] ∧ (part.chars flags).contains c = true) →
          taken.length < longer.length →
            ¬(attempt moves [] (longer.reverse ++ passed) behind).isSome := by
    rw [attempt_read_eq_some]
    constructor
    · rintro ⟨c, behind, rfl, hc, h⟩
      refine ⟨[c], behind, rfl, ⟨c, rfl, hc⟩, h, ?_⟩
      rintro _ _ - ⟨d, rfl, -⟩ hlength
      exact absurd hlength (Nat.lt_irrefl 1)
    · rintro ⟨_, behind, rfl, ⟨c, rfl, hc⟩, h, -⟩
      exact ⟨c, behind, rfl, hc, h⟩
  cases part with
  | literal | any => exact hone
  | many =>
    show longest (dotSet flags) (attempt moves slots) passed rest = some found ↔ _
    rw [longest_eq_some]
    simp only [attempt_isSome moves slots []]
    rfl
  | group =>
    show longest (dotSet flags) (attempt (.save (2 * number + 1) :: moves)
      ((2 * number, passed.length) :: slots)) passed rest = some found ↔ _
    rw [longest_eq_some]
    simp only [attempt, attempt_isSome moves (_ :: _) [], List.length_append, List.length_reverse,
      Nat.add_comm _ passed.length]
    rfl

/-- **Cuts.** Parts lead to a match if the rest of the text can be cut along them. -/
theorem attempt_isSome_iff :
    (attempt (Part.movesToEnd flags number parts) slots passed rest).isSome ↔
      ∃ texts, Cut flags parts rest texts := by
  induction parts generalizing number slots passed rest with
  | nil =>
    simp only [cut_nil, exists_eq_left]
    cases rest <;> simp [Part.movesToEnd, attempt, Assertion.holds]
  | cons part parts ih =>
    rw [Part.movesToEnd, attempt_part_isSome, exists_cut_cons]
    simp only [ih]

/-- **The preferred cut.** Parts find the cut whose texts are as long as possible. -/
theorem attempt_eq_some_iff :
    attempt (Part.movesToEnd flags number parts) slots passed rest = some found ↔
      ∃ texts, Preferred flags parts rest texts ∧
        found = marksToEnd number passed.length parts texts slots := by
  induction parts generalizing number slots passed rest with
  | nil =>
    simp only [preferred_nil, and_assoc, exists_eq_left]
    cases rest <;> simp [Part.movesToEnd, attempt, Assertion.holds, marksToEnd, eq_comm]
  | cons part parts ih =>
    rw [Part.movesToEnd, attempt_part_eq_some]
    simp only [ih, attempt_isSome_iff]
    constructor
    · rintro ⟨taken, behind, rfl, htaken, ⟨texts, htexts, rfl⟩, hlongest⟩
      obtain rfl := htexts.joined
      refine ⟨taken :: texts, preferred_cons.mpr ⟨htaken, rfl, htexts, hlongest⟩, ?_⟩
      simp [marksToEnd, Nat.add_comm]
    · rintro ⟨texts, htexts, rfl⟩
      obtain ⟨taken, texts, -, -, rfl⟩ := List.forall₂_cons_left_iff.mp htexts.takes
      obtain ⟨htaken, hsplit, hothers, hlongest⟩ := preferred_cons.mp htexts
      refine ⟨taken, texts.flatten, hsplit, htaken, ⟨texts, hothers, ?_⟩, hlongest⟩
      simp [marksToEnd, Nat.add_comm]

/-! ## Whole texts -/

theorem moves?_sequence_cons {item : Expression} {rest : List Expression} {first after : List Move}
    (hfirst : item.moves? = some first) (hafter : (sequence rest).moves? = some after) :
    (sequence (item :: rest)).moves? = some (first ++ after) := by
  cases rest with
  | nil =>
    obtain rfl : [] = after := Option.some.inj hafter
    rwa [List.append_nil]
  | cons other rest =>
    rw [sequence, Expression.moves?, hfirst, hafter]
    · rfl
    · simp

theorem moves?_item (part : Part) :
    (part.item flags number).moves? = some (part.moves flags number) := by
  cases part <;> rfl

/-- The items of parts have the moves of the parts. -/
theorem exists_moves?_items (flags : Flags) (number : Nat) (parts : List Part) :
    ∃ moves, moves ++ [.check .textEnd, .save 1] = Part.movesToEnd flags number parts ∧
      ∀ rest after, (sequence rest).moves? = some after →
        (sequence (Part.items flags number parts ++ rest)).moves? = some (moves ++ after) := by
  induction parts generalizing number with
  | nil => exact ⟨[], rfl, fun _ _ => id⟩
  | cons part parts ih =>
    obtain ⟨moves, hmoves, hitems⟩ := ih (number + part.groups)
    refine ⟨part.moves flags number ++ moves, ?_, fun rest after hafter => ?_⟩
    · rw [List.append_assoc, hmoves, Part.movesToEnd]
    · rw [List.append_assoc]
      exact moves?_sequence_cons (moves?_item part) (hitems rest after hafter)

/-- whether an expression consists of parts that stand for a whole text -/
def Expression.IsWhole (flags : Flags) (parts : List Part) (expression : Expression) : Prop :=
  ∃ moves, moves ++ [.save 1] = .check .textStart :: Part.movesToEnd flags 1 parts ∧
    expression.moves? = some moves

theorem isWhole_anyCaseText (parts : List Part) :
    (anyCaseText parts).IsWhole anyCaseFlags parts := by
  obtain ⟨moves, hmoves, hitems⟩ := exists_moves?_items anyCaseFlags 1 parts
  refine ⟨[.check .textStart] ++ (moves ++ [.check .textEnd]), ?_, ?_⟩
  · rw [← hmoves]
    simp
  · exact moves?_sequence_cons rfl (hitems [.check .textEnd] _ rfl)

theorem isWhole_lineText (parts : List Part) : (lineText parts).IsWhole {} parts := by
  obtain ⟨moves, hmoves, hitems⟩ := exists_moves?_items {} 1 parts
  refine ⟨[.check .textStart] ++ (moves ++ [.check .textEnd]), ?_, ?_⟩
  · rw [← hmoves]
    simp
  · have hinside : (sequence (Part.items {} 1 parts)).moves? = some moves := by
      simpa using hitems [] [] rfl
    exact moves?_sequence_cons rfl (moves?_sequence_cons hinside rfl)

variable {regex : Regex}

/-- A search for a whole text tries the parts from its start. -/
theorem Regex.find?_whole (hwhole : regex.expression.IsWhole flags parts) (text : List Char) :
    regex.find? text = attempt (Part.movesToEnd flags 1 parts) [(0, 0)] [] text := by
  obtain ⟨moves, hend, hmoves⟩ := hwhole
  rw [Regex.find?_eq hmoves, hend, leftmost_textStart]

/-- **Matches of whole texts.** A text matches if it can be cut along the parts. -/
theorem Regex.isMatch_iff (hwhole : regex.expression.IsWhole flags parts) :
    regex.isMatch text = true ↔ ∃ texts, Cut flags parts text texts := by
  rw [Regex.isMatch, Regex.find?_whole hwhole, attempt_isSome_iff]

/-- What is remembered of a whole text is the preferred cut. -/
theorem Regex.find?_eq_some_iff (hwhole : regex.expression.IsWhole flags parts) :
    regex.find? text = some found ↔
      ∃ texts, Preferred flags parts text texts ∧ found = marksToEnd 1 0 parts texts [(0, 0)] := by
  rw [Regex.find?_whole hwhole, attempt_eq_some_iff]
  rfl

/-! ## The texts of groups -/

theorem Slots.at?_cons (slot position : Nat) (slots : Slots) (other : Nat) :
    Slots.at? ((slot, position) :: slots) other =
      if slot = other then some position else slots.at? other := by
  by_cases h : slot = other <;> simp [Slots.at?, h]

/-- A part remembers positions of its own group only. -/
theorem at?_marks {position other : Nat} (hother : other ≠ 2 * number ∧ other ≠ 2 * number + 1) :
    (part.marks number position text ++ slots).at? other = slots.at? other := by
  cases part with
  | literal | any | many => rfl
  | group =>
    simp only [Part.marks, List.cons_append, List.nil_append]
    rw [Slots.at?_cons, if_neg (Ne.symm hother.2), Slots.at?_cons, if_neg (Ne.symm hother.1)]

/-- the texts that groups have taken -/
def groupTexts : List Part → List (List Char) → List (List Char)
  | part :: parts, text :: texts =>
    if part = .group then text :: groupTexts parts texts else groupTexts parts texts
  | _, _ => []

/-- **Groups.** The groups of a cut are the texts of its parts, in order. -/
theorem group_marksToEnd {before : List Char} (hlength : parts.length = texts.length)
    (hnumber : 1 ≤ number) (hfresh : ∀ other, number ≤ other → slots.at? (2 * other) = none)
    {other : Nat} (hother : 1 ≤ other) :
    Regex.group (before ++ texts.flatten)
        (marksToEnd number before.length parts texts slots) other =
      if other < number then Regex.group (before ++ texts.flatten) slots other
      else (groupTexts parts texts)[other - number]?.getD [] := by
  induction parts generalizing texts before number slots with
  | nil =>
    obtain rfl := List.eq_nil_of_length_eq_zero hlength.symm
    have hend (slot : Nat) (hslot : 2 ≤ slot) :
        Slots.at? ((1, before.length) :: slots) slot = slots.at? slot := by
      rw [Slots.at?_cons, if_neg (by omega)]
    show Regex.group _ ((1, before.length) :: slots) other = _
    rw [Regex.group, hend _ (by omega), hend _ (by omega), ← Regex.group]
    split
    case isTrue => rfl
    case isFalse h =>
      rw [Regex.group, hfresh other (by omega)]
      rfl
  | cons part parts ih =>
    obtain ⟨text, texts, rfl⟩ := List.exists_cons_of_length_eq_add_one hlength.symm
    have hbefore : before ++ (text :: texts).flatten = (before ++ text) ++ texts.flatten := by simp
    have hnext := @ih (number + part.groups) (part.marks number before.length text ++ slots) texts
      (before ++ text) (Nat.succ.inj hlength) (by omega)
    rw [marksToEnd, hbefore, ← List.length_append]
    cases part with
    | literal | any | many =>
      simp only [groupTexts, reduceCtorEq, if_false]
      exact hnext hfresh
    | group =>
      have hfresh' (later : Nat) (hlater : number + 1 ≤ later) :
          Slots.at? (Part.marks number before.length .group text ++ slots) (2 * later) = none := by
        rw [at?_marks (by omega), hfresh _ (by omega)]
      rw [hnext hfresh', groupTexts, if_pos rfl,
        show number + Part.groups .group = number + 1 from rfl]
      obtain hlt | rfl | hgt := Nat.lt_trichotomy other number
      · rw [if_pos (by omega), if_pos hlt, Regex.group, at?_marks (by omega),
          at?_marks (by omega), ← Regex.group]
      · have hfirst : Slots.at? (Part.marks other before.length .group text ++ slots) (2 * other) =
            some before.length := by
          simp [Part.marks, Slots.at?_cons]
        have hlast : Slots.at? (Part.marks other before.length .group text ++ slots)
            (2 * other + 1) = some (before.length + text.length) := by
          simp [Part.marks, Slots.at?_cons]
        rw [if_pos (by omega), if_neg (Nat.lt_irrefl _), Nat.sub_self, Regex.group, hfirst, hlast]
        simp [Regex.between]
      · rw [if_neg (by omega), if_neg (by omega), show other - number = other - (number + 1) + 1 by
          omega, List.getElem?_cons_succ]

/-- The match of a whole text goes from its start to its end. -/
theorem at?_marksToEnd {position : Nat} (hlength : parts.length = texts.length)
    (hnumber : 1 ≤ number) :
    (marksToEnd number position parts texts slots).at? 0 = slots.at? 0 ∧
      (marksToEnd number position parts texts slots).at? 1 =
        some (position + texts.flatten.length) := by
  induction parts generalizing texts position number slots with
  | nil =>
    obtain rfl := List.eq_nil_of_length_eq_zero hlength.symm
    exact ⟨rfl, rfl⟩
  | cons part parts ih =>
    obtain ⟨text, texts, rfl⟩ := List.exists_cons_of_length_eq_add_one hlength.symm
    obtain ⟨hstart, hend⟩ := @ih (number + part.groups) (part.marks number position text ++ slots)
      texts (position + text.length) (Nat.succ.inj hlength) (by omega)
    rw [marksToEnd, hstart, at?_marks (by omega), hend]
    simp [Nat.add_assoc]

end TableRecipe.Pattern
