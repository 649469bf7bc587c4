import TableRecipe.Proofs.Pattern.Explored
import TableRecipe.Proofs.Pattern.ReadingSteps

/-!
# Patterns between anchors

A pattern that a whole name has to match is put into a group between anchors. Unless it closes a
parenthesis that it has not opened, the group holds the pattern, and the name is matched if the
pattern spans it. There must be room for the group and the anchors, and the pattern must not end in
a comment, which would go on over the parenthesis.

* `Unbalanced`, `Enclosable` — what goes wrong;
* `read?_anchored`, `read?_anchored_eq_none` — what is read between the anchors;
* `isMatch_anchored` — the texts that are matched.
-/

namespace TableRecipe.Pattern

variable {flags : Flags} {c : Char} {cs rest : List Char} {state : State} {regex : Regex}

/-! ## Where reading ends -/

theorem readSequence_ends {fuel depth : Nat} {done : State}
    (h : readSequence fuel depth state cs = some (done, rest)) :
    rest = [] ∨ ∃ more, rest = '|' :: more ∨ rest = ')' :: more := by
  induction fuel generalizing state cs with
  | zero => cases h
  | succ fuel ih =>
    rw [readSequence_succ] at h
    generalize skipVerbose state.flags cs = ahead at h
    cases ahead with
    | nil =>
      cases h
      exact .inl rfl
    | cons c behind =>
      rw [readSequenceRest] at h
      by_cases hend : c = '|' ∨ c = ')'
      · rw [if_pos hend] at h
        cases h
        exact .inr ⟨behind, hend.imp (congrArg (· :: behind)) (congrArg (· :: behind))⟩
      · rw [if_neg hend] at h
        obtain ⟨item, -, hmore⟩ := Option.bind_eq_some_iff.mp h
        exact ih hmore

/-- Alternatives end with the pattern, or at a parenthesis. -/
theorem readAlternatives_ends {fuel depth : Nat} {done : Expression × State}
    (h : apart (readAlternatives fuel depth state cs) = some (done, rest)) :
    rest = [] ∨ ∃ more, rest = ')' :: more := by
  induction fuel generalizing state cs done with
  | zero => cases h
  | succ fuel ih =>
    rw [readAlternatives_succ] at h
    obtain ⟨⟨first, behind⟩, hfirst, hothers⟩ := Option.bind_eq_some_iff.mp h
    obtain ⟨more, rfl⟩ | hbar := eq_cons_or_ne '|' behind
    · obtain ⟨result, hmore, heq⟩ := Option.map_eq_some_iff.mp hothers
      cases heq
      exact ih hmore
    · obtain rfl | ⟨more, rfl | rfl⟩ := readSequence_ends hfirst
      · cases hothers
        exact .inl rfl
      · exact absurd rfl (hbar more)
      · cases hothers
        exact .inr ⟨more, rfl⟩

/-! ## The pattern in the group -/

/-- what a pattern is up to its end, or up to a parenthesis that it has not opened, if `depth`
groups may stand inside each other -/
def readWithin (depth : Nat) (pattern : List Char) :
    Option ((Expression × State) × List Char) :=
  apart (readAlternatives (3 * pattern.length + 3) depth State.fresh pattern)

/-- whether a pattern closes a parenthesis that it has not opened -/
def Unbalanced (pattern : List Char) : Prop :=
  ∃ done rest, readWithin maxNesting pattern = some (done, ')' :: rest)

/-- whether a pattern may stand in a group between anchors -/
structure Enclosable (pattern : List Char) (regex : Regex) : Prop where
  /-- there may be one more group around its groups -/
  nesting : (readWithin (maxNesting - 1) pattern).isSome
  /-- no comment goes on behind it, so that a parenthesis and an anchor do not belong to it -/
  ends : read? (pattern ++ closing) = none
  /-- there is room for the anchors -/
  size : regex.expression.states + 2 ≤ Expression.maxStates

/-- a regular expression between anchors -/
def Regex.anchored (regex : Regex) : Regex where
  expression := .andThen (.check .textStart) (.andThen regex.expression (.check .textEnd))
  groups := regex.groups

theorem read?_eq (pattern : List Char) : read? pattern =
    (readWithin maxNesting pattern).bind fun result =>
      if result.2 = [] ∧ result.1.1.states ≤ Expression.maxStates then
        some ⟨result.1.1, result.1.2.groups⟩
      else none := by
  show (readAlternatives _ _ State.fresh pattern).bind _ = _
  rw [readWithin]
  rcases readAlternatives (3 * pattern.length + 3) maxNesting State.fresh pattern with
    _ | ⟨expression, state, rest⟩
  · rfl
  · show (if _ then _ else _) = if _ then _ else _
    simp [List.isEmpty_iff]

/-- Any number of steps that is enough will do. -/
theorem readWithin_of_fuel {fuel depth : Nat} (hfuel : 3 * cs.length + 2 ≤ fuel) :
    apart (readAlternatives fuel depth State.fresh cs) = readWithin depth cs := by
  have hmono {fuel fuel' : Nat} (h : 3 * cs.length + 2 ≤ fuel) (h' : 3 * cs.length + 2 ≤ fuel') :=
    (readsNoLess fuel fuel').alternatives (Nat.le_refl depth) State.fresh cs h h'
  exact Option.ext fun result => ⟨hmono hfuel (by omega) result, hmono (by omega) hfuel result⟩

/-- Where one more group may stand around the others, everything is as it is otherwise. -/
theorem readWithin_deeper {depth : Nat} {result : (Expression × State) × List Char}
    (h : readWithin depth cs = some result) : readWithin (depth + 1) cs = some result :=
  (readsNoLess _ _).alternatives (Nat.le_succ depth) State.fresh cs (by omega) (by omega) result h

theorem keeps_readWithin (depth : Nat) (cs : List Char) :
    Keeps True ['$'] (readWithin depth cs) (readWithin depth (cs ++ closing)) := by
  have h := ((local_sequences (3 * (cs ++ closing).length + 3)).2.1 depth State.fresh).keeps cs
  rwa [readWithin_of_fuel (by simp; omega), readWithin_of_fuel (by omega)] at h

/-- A pattern that is read to its end is read up to the parenthesis behind it, unless a comment goes
on; otherwise no parenthesis comes behind what is read. -/
theorem readWithin_closing {depth : Nat} {done : Expression × State}
    (h : readWithin depth cs = some (done, [])) :
    readWithin depth (cs ++ closing) = some (done, closing) ∨
      readWithin depth (cs ++ closing) = some (done, []) := by
  have hkeeps := keeps_readWithin depth cs
  rw [h] at hkeeps
  generalize readWithin depth (cs ++ closing) = enclosed at hkeeps
  cases hkeeps with
  | same => exact .inl rfl
  | comment => exact .inr rfl

theorem readWithin_closing_of_none {depth : Nat} {done : Expression × State}
    (h : readWithin depth cs = none)
    (henclosed : readWithin depth (cs ++ closing) = some (done, rest)) : rest <:+ ['$'] := by
  have hkeeps := keeps_readWithin depth cs
  rw [h, henclosed] at hkeeps
  cases hkeeps with
  | taken _ hrest => exact hrest

/-! ## Between the anchors -/

/-- a pattern in a group between anchors -/
def anchoredText (pattern : List Char) : List Char := "^(?:".toList ++ pattern ++ ")$".toList

/-- what has been read behind the group -/
def State.grouped (body : Expression × State) : State where
  flags := {}
  groups := body.2.groups
  items := [some body.1, some (.check .textStart)]

theorem bind_apart {α β γ : Type} (result : Option (α × β × List Char))
    (next : α × β × List Char → Option γ) :
    result.bind next =
      (apart result).bind fun result => next (result.1.1, result.1.2, result.2) := by
  rcases result with _ | ⟨_, _, _⟩ <;> rfl

theorem readSequence_anchoredText (pattern : List Char) (fuel : Nat) :
    readSequence (fuel + 5 + (3 * pattern.length + 15)) maxNesting State.fresh
        (anchoredText pattern) =
      (readWithin (maxNesting - 1) (pattern ++ closing)).bind fun body =>
        (readParenthesis body.2).bind fun behind =>
          readSequence (fuel + 5 + (3 * pattern.length + 13)) maxNesting (State.grouped body.1)
            behind.2 := by
  have hgroup : apart (readGroup (fuel + 5 + (3 * pattern.length + 13)) (maxNesting - 1)
      (State.fresh.push (.check .textStart)) ('?' :: ':' :: (pattern ++ closing))) =
      (readWithin (maxNesting - 1) (pattern ++ closing)).bind fun body =>
        (readParenthesis body.2).map fun behind =>
          ((some body.1.1, { State.fresh.push (.check .textStart) with groups := body.1.2.groups }),
            behind.2) := by
    show apart (readGroup (fuel + 5 + (3 * pattern.length + 12) + 1) _ _ _) = _
    rw [readGroup_succ]
    show (apart (readAlternatives _ _ State.fresh (pattern ++ closing))).bind _ = _
    rw [readWithin_of_fuel (by simp; omega)]
    rfl
  have htext : anchoredText pattern = '^' :: '(' :: '?' :: ':' :: (pattern ++ closing) := rfl
  have hstarted : (State.fresh.push (.check .textStart)).flags.Plain := plain_default
  rw [htext, ← Nat.add_assoc, readSequence_start plain_default]
  show readSequence (fuel + 5 + (3 * pattern.length + 13) + 1) (maxNesting - 1 + 1) _ _ = _
  rw [readSequence_opening hstarted, bind_apart, hgroup, Option.bind_assoc]
  refine Option.bind_congr fun body _ => ?_
  rw [Option.bind_map]
  rfl

/-- A pattern that is read up to the parenthesis is the only thing between the anchors. -/
theorem read?_anchoredText {pattern : List Char} {body : Expression × State}
    (h : readWithin (maxNesting - 1) (pattern ++ closing) = some (body, closing)) :
    read? (anchoredText pattern) =
      if body.1.states + 2 ≤ Expression.maxStates then
        some (Regex.anchored ⟨body.1, body.2.groups⟩) else none := by
  have hread (fuel : Nat) : readSequence (fuel + 5 + (3 * pattern.length + 15)) maxNesting
      State.fresh (anchoredText pattern) =
        some ((State.grouped body).push (.check .textEnd), []) := by
    have hplain : (State.grouped body).flags.Plain := plain_default
    rw [readSequence_anchoredText, h, Option.bind_some, readParenthesis, Option.bind_some,
      ← Nat.add_assoc, readSequence_end hplain]
    exact readSequence_nil hplain
  have hlength : (anchoredText pattern).length = pattern.length + 6 := by
    simp [anchoredText]
  rw [read?_of_sequence (by omega) hread]
  have hstates : ((State.grouped body).push (.check .textEnd)).sequence.states =
      body.1.states + 2 := by
    show 1 + (body.1.states + 1) = _
    omega
  rw [hstates]
  rfl

/-- A pattern that is not read up to a parenthesis leaves the group open. -/
theorem read?_anchoredText_eq_none {pattern : List Char}
    (h : ∀ body rest, readWithin (maxNesting - 1) (pattern ++ closing) ≠ some (body, ')' :: rest)) :
    read? (anchoredText pattern) = none := by
  have hsequence : readSequence (0 + 5 + (3 * pattern.length + 15)) maxNesting State.fresh
      (anchoredText pattern) = none := by
    rw [readSequence_anchoredText]
    rcases hread : readWithin (maxNesting - 1) (pattern ++ closing) with _ | ⟨body, rest⟩
    · rfl
    · have hend := readParenthesis.eq_2 rest fun more hmore => h body more (hmore ▸ hread)
      rw [Option.bind_some, hend, Option.bind_none]
  have hfuel : 3 * (anchoredText pattern).length + 3 = 0 + 5 + (3 * pattern.length + 15) + 1 := by
    simp [anchoredText]
    omega
  rw [read?_eq, readWithin, hfuel, readAlternatives_succ]
  show ((readSequence _ maxNesting State.fresh _).bind _).bind _ = none
  rw [hsequence]
  rfl

/-- A pattern that is not read where one more group stands around it is not read between anchors. -/
theorem read?_anchoredText_of_none {pattern : List Char}
    (h : readWithin (maxNesting - 1) pattern = none) : read? (anchoredText pattern) = none := by
  refine read?_anchoredText_eq_none fun body rest henclosed => ?_
  -- if anything is read, the parenthesis belongs to it, and only the anchor may be left
  obtain heq | hnil := List.suffix_cons_iff.mp (readWithin_closing_of_none h henclosed)
  · cases heq
  · cases List.suffix_nil.mp hnil

/-- A pattern that is read where one more group stands around it is read between anchors, if there
is room, unless it goes on over the parenthesis. -/
theorem read?_anchoredText_of_some {pattern : List Char} {body : Expression × State}
    (h : readWithin (maxNesting - 1) pattern = some (body, [])) :
    readWithin maxNesting (pattern ++ closing) = some (body, closing) ∧
        read? (anchoredText pattern) = (if body.1.states + 2 ≤ Expression.maxStates then
          some (Regex.anchored ⟨body.1, body.2.groups⟩) else none) ∨
      readWithin maxNesting (pattern ++ closing) = some (body, []) ∧
        read? (anchoredText pattern) = none := by
  obtain henclosed | henclosed := readWithin_closing h
  · exact .inl ⟨readWithin_deeper henclosed, read?_anchoredText henclosed⟩
  · refine .inr ⟨readWithin_deeper henclosed, read?_anchoredText_eq_none fun _ _ hread => ?_⟩
    cases henclosed.symm.trans hread

theorem read?_eq_some_iff {pattern : List Char} : read? pattern = some regex ↔
    ∃ body, readWithin maxNesting pattern = some (body, []) ∧
      body.1.states ≤ Expression.maxStates ∧ regex = ⟨body.1, body.2.groups⟩ := by
  rw [read?_eq, Option.bind_eq_some_iff]
  refine ⟨?_, ?_⟩
  · rintro ⟨⟨body, rest⟩, hread, hregex⟩
    obtain ⟨⟨rfl, hstates⟩, heq⟩ := Option.ite_none_right_eq_some.mp hregex
    exact ⟨body, hread, hstates, (Option.some.inj heq).symm⟩
  · rintro ⟨body, hread, hstates, rfl⟩
    exact ⟨(body, []), hread, if_pos ⟨rfl, hstates⟩⟩

/-- What is read with one level of groups less is what is read. -/
theorem readWithin_less_eq_some {pattern : List Char} {body : Expression × State}
    {result : (Expression × State) × List Char}
    (h : readWithin maxNesting pattern = some (body, []))
    (hless : readWithin (maxNesting - 1) pattern = some result) : result = (body, []) :=
  Option.some.inj ((readWithin_deeper hless).symm.trans h)

/-- **A pattern between anchors.** A pattern that may stand in a group stands between the
anchors. -/
theorem read?_anchored {pattern : List Char} (h : read? pattern = some regex)
    (henclosable : Enclosable pattern regex) :
    read? (anchoredText pattern) = some regex.anchored := by
  obtain ⟨body, hread, hstates, rfl⟩ := read?_eq_some_iff.mp h
  obtain ⟨result, hless⟩ := Option.isSome_iff_exists.mp henclosable.nesting
  rw [readWithin_less_eq_some hread hless] at hless
  obtain ⟨-, hanchored⟩ | ⟨hopen, -⟩ := read?_anchoredText_of_some hless
  · rw [hanchored, if_pos henclosable.size]
  · -- a comment would go on over the parenthesis
    have hsome : read? (pattern ++ closing) = some ⟨body.1, body.2.groups⟩ :=
      read?_eq_some_iff.mpr ⟨body, hopen, hstates, rfl⟩
    cases hsome.symm.trans henclosable.ends

/-- A pattern that may not stand in a group is none between the anchors. -/
theorem read?_anchored_of_not_enclosable {pattern : List Char} (h : read? pattern = some regex)
    (henclosable : ¬Enclosable pattern regex) : read? (anchoredText pattern) = none := by
  obtain ⟨body, hread, hstates, rfl⟩ := read?_eq_some_iff.mp h
  rcases hless : readWithin (maxNesting - 1) pattern with _ | result
  · exact read?_anchoredText_of_none hless
  · have hnesting : (readWithin (maxNesting - 1) pattern).isSome := hless ▸ rfl
    rw [readWithin_less_eq_some hread hless] at hless
    obtain ⟨henclosed, hanchored⟩ | ⟨-, hnone⟩ := read?_anchoredText_of_some hless
    · rw [hanchored, if_neg fun hsize => henclosable ⟨hnesting, ?_, hsize⟩]
      rw [read?_eq, henclosed]
      rfl
    · exact hnone

/-- What is no pattern is none between the anchors either, unless it closes a parenthesis that it
has not opened. -/
theorem read?_anchored_of_not_unbalanced {pattern : List Char} (h : read? pattern = none)
    (hbalanced : ¬Unbalanced pattern) : read? (anchoredText pattern) = none := by
  rcases hless : readWithin (maxNesting - 1) pattern with _ | ⟨body, rest⟩
  · exact read?_anchoredText_of_none hless
  · have hread := readWithin_deeper hless
    obtain rfl | ⟨more, rfl⟩ := readAlternatives_ends hread
    · -- the pattern is too large, and is no smaller between the anchors
      have hstates : ¬body.1.states ≤ Expression.maxStates := fun hstates => by
        cases h.symm.trans (read?_eq_some_iff.mpr ⟨body, hread, hstates, rfl⟩)
      obtain ⟨-, hanchored⟩ | ⟨-, hnone⟩ := read?_anchoredText_of_some hless
      · rw [hanchored, if_neg (by omega)]
      · exact hnone
    · exact absurd ⟨body, more, hread⟩ hbalanced

/-! ## What is matched -/

/-- whether an expression spans a whole text -/
def Expression.SpansWhole (expression : Expression) (text : List Char) : Prop :=
  expression.Spans ⟨[], text⟩ ⟨text.reverse, []⟩

/-- the text in which a spot is -/
def Spot.text (spot : Spot) : List Char := spot.passed.reverse ++ spot.rest

/-- An expression stays in the text. -/
theorem Expression.Spans.text_eq {expression : Expression} {here there : Spot}
    (h : expression.Spans here there) : there.text = here.text := by
  induction expression generalizing here there with
  | empty => exact congrArg Spot.text (Eq.symm h)
  | set chars =>
    obtain ⟨c, rest, hrest, -, rfl⟩ := h
    simp [Spot.text, hrest]
  | check assertion => exact congrArg Spot.text h.2.symm
  | capture number inner ih => exact ih h
  | andThen first second ihfirst ihsecond =>
    obtain ⟨middle, hfirst, hsecond⟩ := h
    exact (ihsecond hsecond).trans (ihfirst hfirst)
  | orElse first second ihfirst ihsecond => exact h.elim ihfirst ihsecond
  | times least most greedy inner ih =>
    -- one repetition after the other
    obtain ⟨count, -, -, hrepeated⟩ := h
    clear * - ih hrepeated
    induction count generalizing there with
    | zero => exact congrArg Spot.text hrepeated.symm
    | succ count ihcount =>
      obtain ⟨last, hbefore, hlast⟩ := hrepeated
      exact (ih hlast).trans (ihcount hbefore)

/-- **Matches between anchors.** The texts that have a match of a regular expression between anchors
are those that the expression spans as a whole. -/
theorem Regex.isMatch_anchored {text : List Char} :
    regex.anchored.isMatch text ↔ regex.expression.SpansWhole text := by
  rw [isMatch_iff_spans]
  refine ⟨?_, ?_⟩
  · rintro ⟨skipped, rest, rfl, there, _, ⟨hstart, rfl⟩, last, hspans, hend, rfl⟩
    obtain rfl : skipped = [] := by simpa [Assertion.holds] using hstart
    obtain ⟨passed, behind⟩ := last
    obtain rfl : behind = [] := by simpa [Assertion.holds] using hend
    have htext : passed.reverse ++ [] = rest := hspans.text_eq
    rw [List.append_nil] at htext
    obtain rfl := List.reverse_eq_iff.mp htext
    exact hspans
  · intro h
    exact ⟨[], text, rfl, _, _, ⟨rfl, rfl⟩, _, h, rfl, rfl⟩

end TableRecipe.Pattern
