import TableRecipe.Proofs.Pattern.LocalClasses

/-!
# Patterns in front of a closing parenthesis

* `readSequence_succ`, `readAlternatives_succ`, `readGroup_succ` — one step of reading;
* `local_sequences` — a pattern in a group is the pattern that it is alone.
-/

namespace TableRecipe.Pattern

variable {skips : Prop} {loss : List Char} {flags : Flags} {c : Char} {cs rest : List Char}
  {state : State}

/-! ## One step of reading -/

/-- what an escape is in a sequence -/
def Escape.item (flags : Flags) : Escape → Expression
  | literal c => .set (foldCase flags (.single c))
  | set chars => .set chars
  | property chars => .set (foldCase flags chars)
  | check assertion => .check assertion

/-- an item of a sequence after its first character; `group` reads a group and `nested` a class -/
def readItem (group : State → List Char → Option ((Option Expression × State) × List Char))
    (nested : List Char → Option (CharSet × List Char)) (state : State) (c : Char)
    (rest : List Char) : Option (State × List Char) :=
  match c with
  | '(' => (group state (skipVerbose state.flags rest)).map fun result =>
      ({ result.1.2 with items := result.1.1 :: result.1.2.items }, result.2)
  | '[' => (nested rest).map fun result => (state.push (.set result.1), result.2)
  | '*' => repeatLast state 0 none rest
  | '+' => repeatLast state 1 none rest
  | '?' => repeatLast state 0 (some 1) rest
  | '\x7b' => (readBounds? state.flags rest).bind fun result =>
      repeatLast state result.1.1 result.1.2 (skipVerbose state.flags result.2)
  | '.' =>
    if state.flags.unicode then some (state.push (.set (dotSet state.flags)), rest) else none
  | '^' => some (state.push (.check (if state.flags.multiLine then .lineStart state.flags.returns
      else .textStart)), rest)
  | '$' => some (state.push (.check (if state.flags.multiLine then .lineEnd state.flags.returns
      else .textEnd)), rest)
  | '\\' => (readEscape state.flags rest).map fun result =>
      (state.push (result.1.item state.flags), result.2)
  | c => some (state.push (.set (foldCase state.flags (.single c))), rest)

/-- a group, if groups may open -/
def groupWithin (fuel depth : Nat) (state : State) (cs : List Char) :
    Option ((Option Expression × State) × List Char) :=
  if depth = 0 then none else apart (readGroup fuel (depth - 1) state cs)

/-- what is left of a sequence, where no blanks stand; `more` reads on behind its next item -/
def readSequenceRest
    (group : State → List Char → Option ((Option Expression × State) × List Char))
    (nested : Flags → List Char → Option (CharSet × List Char))
    (more : State → List Char → Option (State × List Char)) (state : State) :
    List Char → Option (State × List Char)
  | [] => some (state, [])
  | c :: rest =>
    if c = '|' ∨ c = ')' then some (state, c :: rest)
    else (readItem group (nested state.flags) state c rest).bind fun result =>
      more result.1 result.2

theorem readSequence_succ (fuel depth : Nat) (state : State) (cs : List Char) :
    readSequence (fuel + 1) depth state cs = readSequenceRest (groupWithin fuel depth)
      (readClass fuel) (readSequence fuel depth) state (skipVerbose state.flags cs) := by
  rw [readSequence]
  dsimp only
  generalize skipVerbose state.flags cs = cs
  split
  · rfl
  · rfl
  · rfl
  · next rest =>
    show _ = ((groupWithin fuel depth state (skipVerbose state.flags rest)).map _).bind _
    rw [groupWithin]
    split
    · rfl
    · rcases readGroup fuel (depth - 1) state (skipVerbose state.flags rest) with _ | ⟨_, _, _⟩ <;>
        rfl
  · next rest =>
    show _ = ((readClass fuel state.flags rest).map _).bind _
    rcases readClass fuel state.flags rest with _ | ⟨_, _⟩ <;> rfl
  · rfl
  · rfl
  · rfl
  · next rest =>
    show _ = ((readBounds? state.flags rest).bind _).bind _
    rw [Option.bind_assoc]
    rfl
  · show _ = (if _ then _ else _ : Option _).bind _
    split <;> rfl
  · rfl
  · rfl
  · next rest =>
    show _ = ((readEscape state.flags rest).map _).bind _
    rcases readEscape state.flags rest with _ | ⟨_ | _ | _ | _, _⟩ <;> rfl
  · next c rest hbar hend hgroup hclass hmany honce hoptional hcount hdot hstart hstop hescape =>
    rw [readSequenceRest, if_neg (by simp_all), readItem]
    · rfl
    all_goals simpa

/-- the alternatives behind a sequence -/
def readOthers (others : List Char → Option ((Expression × State) × List Char)) (state : State) :
    List Char → Option ((Expression × State) × List Char)
  | '|' :: rest => (others rest).map fun result =>
    ((.orElse state.sequence result.1.1, result.1.2), result.2)
  | rest => some ((state.sequence, state), rest)

theorem readAlternatives_succ (fuel depth : Nat) (state : State) (cs : List Char) :
    apart (readAlternatives (fuel + 1) depth state cs) =
      (readSequence fuel depth { state with items := [] } cs).bind fun result =>
        readOthers (fun cs => apart (readAlternatives fuel depth result.1 cs)) result.1
          result.2 := by
  rw [readAlternatives]
  rcases readSequence fuel depth { state with items := [] } cs with _ | ⟨state, rest⟩
  · rfl
  · obtain ⟨rest, rfl⟩ | hbar := eq_cons_or_ne '|' rest
    · show apart ((readAlternatives fuel depth state rest).bind _) =
        (apart (readAlternatives fuel depth state rest)).map _
      rcases readAlternatives fuel depth state rest with _ | ⟨_, _, _⟩ <;> rfl
    · rw [Option.bind_some, readOthers.eq_2 _ _ _ hbar, Option.bind_eq_bind, Option.bind_some]
      dsimp only
      split
      · exact absurd rfl (hbar _)
      · rfl

/-- a closing parenthesis -/
def readParenthesis : List Char → Option (Unit × List Char)
  | ')' :: rest => some ((), rest)
  | _ => none

/-- what a group is, behind its start; `inner` reads what it holds -/
def readGroupRest (inner : State → List Char → Option ((Expression × State) × List Char))
    (state : State) (opening : Opening) (cs : List Char) :
    Option ((Option Expression × State) × List Char) :=
  match opening with
  | .flags flags => some ((none, { state with flags }), cs)
  | .group flags number groups =>
    (inner { flags, groups, items := [] } cs).bind fun body =>
      (readParenthesis body.2).map fun behind =>
        ((some (number.elim body.1.1 fun number => .capture number body.1.1),
          { state with groups := body.1.2.groups }), behind.2)

/-- what a group holds, and the parenthesis that closes it -/
def readInner (fuel depth : Nat) (state : State) (flags : Flags) (number : Option Nat)
    (groups : Groups) (cs : List Char) : Option (Option Expression × State × List Char) :=
  (readAlternatives fuel depth { flags, groups, items := [] } cs).bind fun body =>
    match body.2.2 with
    | ')' :: rest => some (some (match number with
        | some number => Expression.capture number body.1
        | none => body.1), { state with groups := body.2.1.groups }, rest)
    | _ => none

theorem apart_readInner (fuel depth : Nat) (state : State) (flags : Flags) (number : Option Nat)
    (groups : Groups) (cs : List Char) :
    apart (readInner fuel depth state flags number groups cs) =
      readGroupRest (fun state cs => apart (readAlternatives fuel depth state cs)) state
        (.group flags number groups) cs := by
  rw [readInner, readGroupRest]
  rcases readAlternatives fuel depth { flags, groups, items := [] } cs with
    _ | ⟨body, after, behind⟩
  · rfl
  · show _ = (readParenthesis behind).map _
    obtain ⟨rest, rfl⟩ | hend := eq_cons_or_ne ')' behind
    · cases number <;> rfl
    · rw [readParenthesis.eq_2 _ hend, Option.bind_some]
      dsimp only
      split
      · exact absurd rfl (hend _)
      · rfl

/-- A group with a name holds what a group without one does. -/
theorem apart_readNamed (fuel depth : Nat) (state : State) (cs : List Char) :
    apart ((readName? cs).bind fun name =>
        if state.groups.names.any (·.1 = name.1) then none
        else readInner fuel depth state state.flags (some (state.groups.count + 1))
          { count := state.groups.count + 1,
            names := (name.1, state.groups.count + 1) :: state.groups.names } name.2) =
      (readNamed state.flags state.groups cs).bind fun opening =>
        readGroupRest (fun state cs => apart (readAlternatives fuel depth state cs)) state
          opening.1 opening.2 := by
  rw [readNamed]
  rcases readName? cs with _ | ⟨name, rest⟩
  · rfl
  · show apart (if _ then _ else _) = ((state.groups.named? name).bind _).bind _
    rw [Groups.named?]
    split
    · rfl
    · exact apart_readInner fuel depth state state.flags (some (state.groups.count + 1)) _ rest

/-- No name begins with a character that is neither a letter nor an underscore. -/
theorem readName?_eq_none (hunderscore : c ≠ '_') (hletter : Letter.isAlphabetic c = false)
    (hend : c ≠ '>') (cs : List Char) : readName? (c :: cs) = none := by
  rw [readName?, List.takeWhile_cons_of_pos (by simpa using hend)]
  split
  · next heq _ =>
    cases heq
    simp [hunderscore, hletter]
  · rfl

theorem readGroup_succ (fuel depth : Nat) (state : State) (cs : List Char) :
    apart (readGroup (fuel + 1) depth state cs) =
      (readOpening state.flags state.groups cs).bind fun opening =>
        readGroupRest (fun state cs => apart (readAlternatives fuel depth state cs)) state
          opening.1 opening.2 := by
  rw [readGroup.eq_def]
  dsimp only
  split
  · next rest => exact apart_readNamed fuel depth state rest
  · next rest =>
    show none = ((readName? ('=' :: rest)).bind _).bind _
    rw [readName?_eq_none (by decide) (by decide +kernel) (by decide)]
    rfl
  · next rest =>
    show none = ((readName? ('!' :: rest)).bind _).bind _
    rw [readName?_eq_none (by decide) (by decide +kernel) (by decide)]
    rfl
  · next rest _ _ => exact apart_readNamed fuel depth state rest
  · next rest hletter _ _ hbracket =>
    have hopening : readOpening state.flags state.groups ('?' :: rest) =
        (readFlags [] true state.flags rest).map fun result =>
          (if result.2.1 then .group result.1 none state.groups else .flags result.1,
            result.2.2) := by
      rw [readOpening, readMarked.eq_2 _ _ _ (by simpa using hbracket)]
      obtain ⟨rest, rfl⟩ | hne := eq_cons_or_ne 'P' rest
      · rw [readUnnamed, readBracket.eq_2 _ _ _ (by simpa using hletter)]
        rfl
      · exact readUnnamed.eq_2 _ _ _ hne
    rw [hopening]
    rcases readFlags [] true state.flags rest with _ | ⟨flags, opens, rest⟩
    · rfl
    · cases opens with
      | false => rfl
      | true => exact apart_readInner fuel depth state flags none state.groups rest
  · next hmark =>
    rw [readOpening.eq_2 _ _ _ hmark]
    exact apart_readInner fuel depth state state.flags (some (state.groups.count + 1)) _ _

/-! ## In front of a closing parenthesis -/

section

variable {group : State → List Char → Option ((Option Expression × State) × List Char)}
  {nested : Flags → List Char → Option (CharSet × List Char)}
  {more : State → List Char → Option (State × List Char)}

theorem local_readItem {nested : List Char → Option (CharSet × List Char)}
    (hgroup : ∀ state, Local True ['$'] (group state)) (hnested : Local False ['$'] nested)
    (state : State) (c : Char) : Local True ['$'] (readItem group nested state c) := by
  have hchar (item : Expression) : Local True ['$'] fun cs => some (state.push item, cs) :=
    .pure (state.push item)
  unfold readItem
  split
  · exact ((local_skipVerbose state.flags).bind fun _ => hgroup state).map fun result =>
      { result.2 with items := result.1 :: result.2.items }
  · exact hnested.skipping.map fun set => state.push (.set set)
  · exact local_repeatLast state 0 none
  · exact local_repeatLast state 1 none
  · exact local_repeatLast state 0 (some 1)
  · exact (local_readBounds? state.flags).bind fun bounds =>
      (local_skipVerbose state.flags).bind fun _ => local_repeatLast state bounds.1 bounds.2
  · exact .ite (hchar _) .fail
  · exact hchar _
  · exact hchar _
  · exact (local_readEscape state.flags).map fun escape => state.push (escape.item state.flags)
  · exact hchar _

theorem local_readSequenceRest (hgroup : ∀ state, Local True ['$'] (group state))
    (hnested : ∀ flags, Local False ['$'] (nested flags))
    (hmore : ∀ state, Local True ['$'] (more state)) (state : State) :
    Local True ['$'] (readSequenceRest group nested more state) where
  shrinks := by
    intro cs done rest h
    cases cs with
    | nil =>
      cases h
      exact List.suffix_refl _
    | cons c behind =>
      rw [readSequenceRest] at h
      split at h
      · cases h
        exact List.suffix_refl _
      · exact (((local_readItem hgroup (hnested state.flags) state c).bind hmore).shrinks h).trans
          (List.suffix_cons c behind)
  keeps := by
    intro cs
    cases cs with
    | nil =>
      -- where the pattern ends, the parenthesis ends the sequence
      exact .same state []
    | cons c rest =>
      rw [List.cons_append, readSequenceRest, readSequenceRest]
      split
      · exact .same state (c :: rest)
      · exact ((local_readItem hgroup (hnested state.flags) state c).bind hmore).keeps rest

theorem local_readOthers {others : List Char → Option ((Expression × State) × List Char)}
    (hothers : Local True ['$'] others) (state : State) :
    Local True ['$'] (readOthers others state) :=
  .headed '|' (by decide)
    (hothers.map fun result : Expression × State =>
      (Expression.orElse state.sequence result.1, result.2))
    (.pure (state.sequence, state)) fun cs hcs => readOthers.eq_2 others state cs hcs

theorem local_readParenthesis : Local skips ['$'] readParenthesis where
  shrinks := by
    intro cs x rest h
    unfold readParenthesis at h
    split at h
    · cases h
      exact List.suffix_cons _ _
    · cases h
  keeps := by
    intro cs
    rcases cs with _ | ⟨c, rest⟩
    · -- a group that is not closed takes the parenthesis
      exact .taken () (List.suffix_refl _)
    · by_cases hc : c = ')'
      · subst hc
        exact .same () rest
      · rw [List.cons_append, readParenthesis.eq_2 _ (by simp [hc]),
          readParenthesis.eq_2 _ (by simp [hc])]
        exact .fails

theorem local_readGroupRest {inner : State → List Char → Option ((Expression × State) × List Char)}
    (hinner : ∀ state, Local True ['$'] (inner state)) (state : State) (opening : Opening) :
    Local True ['$'] (readGroupRest inner state opening) := by
  cases opening with
  | flags flags => exact .pure (none, { state with flags })
  | group flags number groups =>
    exact (hinner { flags, groups, items := [] }).bind fun body =>
      local_readParenthesis.map fun _ =>
        (some (number.elim body.1 fun number => .capture number body.1),
          { state with groups := body.2.groups })

end

/-- Sequences, alternatives and groups are read in front of what closes a group as they are read
alone. -/
theorem local_sequences (fuel : Nat) :
    (∀ depth state, Local True ['$'] (readSequence fuel depth state)) ∧
      (∀ depth state, Local True ['$'] fun cs => apart (readAlternatives fuel depth state cs)) ∧
      ∀ depth state, Local True ['$'] fun cs => apart (readGroup fuel depth state cs) := by
  induction fuel with
  | zero => exact ⟨fun _ _ => .fail, fun _ _ => .fail, fun _ _ => .fail⟩
  | succ fuel ih =>
    obtain ⟨hsequence, halternatives, hgroup⟩ := ih
    refine ⟨fun depth state => ?_, fun depth state => ?_, fun depth state => ?_⟩
    · have hwithin (state : State) : Local True ['$'] (groupWithin fuel depth state) :=
        .ite (p := depth = 0) .fail (hgroup (depth - 1) state)
      exact ((local_skipVerbose state.flags).bind fun _ => local_readSequenceRest hwithin
        (local_readClass_and_items fuel).1 (hsequence depth) state).congr
          (readSequence_succ fuel depth state)
    · exact ((hsequence depth { state with items := [] }).bind fun state =>
        local_readOthers (halternatives depth state) state).congr
          (readAlternatives_succ fuel depth state)
    · exact ((local_readOpening state.flags state.groups).bind
        (local_readGroupRest (halternatives depth) state)).congr (readGroup_succ fuel depth state)

theorem local_groupWithin (fuel depth : Nat) (state : State) :
    Local True ['$'] (groupWithin fuel depth state) :=
  .ite (p := depth = 0) .fail ((local_sequences fuel).2.2 (depth - 1) state)

end TableRecipe.Pattern
