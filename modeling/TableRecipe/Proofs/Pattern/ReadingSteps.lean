import TableRecipe.Proofs.Pattern.LocalSequences

/-!
# The steps of reading

Reading a pattern takes no more than three steps for each of its characters, so that more steps than
that change nothing. Where more groups may stand inside each other, no less is read.

* `readClass_steps` — the steps of reading a class;
* `readItem_mono`, `readSequenceRest_mono`, … — one step, whatever reads the parts;
* `readsNoLess` — what is read with enough steps is read with any other number that is enough.
-/

namespace TableRecipe.Pattern

variable {flags : Flags} {c : Char} {cs rest : List Char} {state : State}

/-! ## Classes -/

theorem length_takeOperation? {operation : SetOperation}
    (h : takeOperation? cs = some (operation, rest)) : rest.length < cs.length := by
  unfold takeOperation? at h
  split at h <;> cases h <;> simp only [List.length_cons] <;> omega

section

variable {nested nested' : List Char → Option (CharSet × List Char)}
  {more more' : Option (SetOperation × CharSet) → CharSet → List Char →
    Option (CharSet × List Char)}

theorem readClassPart_congr
    (hnested : ∀ rest, rest.length < cs.length → nested rest = nested' rest) :
    readClassPart nested flags cs = readClassPart nested' flags cs := by
  obtain ⟨rest, rfl⟩ | hclass := eq_cons_or_ne '[' cs
  · rw [readClassPart, readClassPart, hnested rest (by simp)]
  · rw [readClassPart.eq_2 _ _ _ hclass, readClassPart.eq_2 _ _ _ hclass]

theorem readClassRest_congr (hlocal : Local False ['$'] nested)
    (hnested : ∀ rest, rest.length < cs.length → nested rest = nested' rest)
    (hmore : ∀ pending items rest, rest.length < cs.length →
      more pending items rest = more' pending items rest)
    (pending : Option (SetOperation × CharSet)) (items : CharSet) :
    readClassRest nested more flags pending items cs =
      readClassRest nested' more' flags pending items cs := by
  unfold readClassRest
  rcases hoperation : takeOperation? cs with _ | ⟨operation, rest⟩
  · obtain ⟨rest, rfl⟩ | hend := eq_cons_or_ne ']' cs
    · rfl
    · have hpart : ((readClassPart nested flags cs).bind fun result =>
          more pending (.either items result.1) result.2) =
          (readClassPart nested' flags cs).bind fun result =>
            more' pending (.either items result.1) result.2 := by
        rw [← readClassPart_congr hnested]
        rcases hread : readClassPart nested flags cs with _ | ⟨set, rest⟩
        · rfl
        · exact hmore _ _ _ (length_readClassPart hlocal hread)
      split
      · next heq => cases heq
      · exact absurd rfl (hend _)
      · exact hpart
  · exact hmore _ _ _ (length_takeOperation? hoperation)

end

/-- Enough steps are as good as any other number that is enough. -/
theorem readClass_steps (fuel fuel' : Nat) :
    (∀ flags (cs : List Char), 2 * cs.length + 2 ≤ fuel → 2 * cs.length + 2 ≤ fuel' →
      readClass fuel flags cs = readClass fuel' flags cs) ∧
    ∀ flags pending items (cs : List Char), 2 * cs.length + 1 ≤ fuel → 2 * cs.length + 1 ≤ fuel' →
      readClassItems fuel flags pending items cs = readClassItems fuel' flags pending items cs := by
  induction fuel generalizing fuel' with
  | zero => exact ⟨fun _ _ h => absurd h (by omega), fun _ _ _ _ h => absurd h (by omega)⟩
  | succ fuel ih =>
    cases fuel' with
    | zero => exact ⟨fun _ _ _ h => absurd h (by omega), fun _ _ _ _ _ h => absurd h (by omega)⟩
    | succ fuel' =>
      refine ⟨fun flags cs h h' => ?_, fun flags pending items cs h h' => ?_⟩
      · rw [readClass_succ, readClass_succ]
        rcases hstart : readClassStart flags cs with _ | ⟨start, rest⟩
        · rfl
        · have hrest := ((local_readClassStart flags).shrinks hstart).length_le
          rw [Option.bind_some, Option.bind_some, (ih fuel').2 _ _ _ rest (by omega) (by omega)]
      · -- what comes next in a class stands behind at least one character
        have hskip := (skipVerbose_suffix flags cs).length_le
        rw [readClassItems_succ, readClassItems_succ]
        refine readClassRest_congr ((local_readClass_and_items fuel).1 flags) (fun rest hrest => ?_)
          (fun pending items rest hrest => ?_) pending items
        · exact (ih fuel').1 flags rest (by omega) (by omega)
        · exact (ih fuel').2 flags pending items rest (by omega) (by omega)

/-! ## Sequences, alternatives, groups -/

section

variable {group group' : State → List Char → Option ((Option Expression × State) × List Char)}
  {nested nested' : Flags → List Char → Option (CharSet × List Char)}
  {more more' : State → List Char → Option (State × List Char)}

theorem readItem_mono {nested nested' : List Char → Option (CharSet × List Char)}
    {result : State × List Char}
    (hgroup : ∀ state ahead, ahead.length ≤ rest.length → ∀ result,
      group state ahead = some result → group' state ahead = some result)
    (hnested : nested rest = nested' rest)
    (h : readItem group nested state c rest = some result) :
    readItem group' nested' state c rest = some result := by
  unfold readItem at h ⊢
  split at h
  · obtain ⟨item, hitem, rfl⟩ := Option.map_eq_some_iff.mp h
    dsimp only
    rw [hgroup state _ (skipVerbose_suffix _ _).length_le item hitem]
    rfl
  · rw [← hnested]
    exact h
  · exact h
  · exact h
  · exact h
  · exact h
  · exact h
  · exact h
  · exact h
  · exact h
  · exact h

theorem readSequenceRest_mono (hlocal : ∀ state, Local True ['$'] (group state))
    (hclass : ∀ flags, Local False ['$'] (nested flags)) {result : State × List Char}
    (hgroup : ∀ state ahead, ahead.length < cs.length → ∀ result,
      group state ahead = some result → group' state ahead = some result)
    (hnested : ∀ flags ahead, ahead.length < cs.length → nested flags ahead = nested' flags ahead)
    (hmore : ∀ state ahead, ahead.length < cs.length → ∀ result,
      more state ahead = some result → more' state ahead = some result)
    (h : readSequenceRest group nested more state cs = some result) :
    readSequenceRest group' nested' more' state cs = some result := by
  cases cs with
  | nil => exact h
  | cons c rest =>
    rw [readSequenceRest] at h ⊢
    by_cases hend : c = '|' ∨ c = ')'
    · rwa [if_pos hend] at h ⊢
    · rw [if_neg hend] at h ⊢
      obtain ⟨⟨after, behind⟩, hitem, hbehind⟩ := Option.bind_eq_some_iff.mp h
      have hlength := ((local_readItem hlocal (hclass state.flags) state c).shrinks hitem).length_le
      have hitem' : readItem group' (nested' state.flags) state c rest = some (after, behind) :=
        readItem_mono (fun state ahead hahead => hgroup state ahead (Nat.lt_succ_of_le hahead))
          (hnested state.flags rest (Nat.lt_succ_self _)) hitem
      rw [hitem', Option.bind_some]
      exact hmore after behind (Nat.lt_succ_of_le hlength) result hbehind

theorem readOthers_mono {others others' : List Char → Option ((Expression × State) × List Char)}
    {result : (Expression × State) × List Char}
    (hothers : ∀ rest, rest.length < cs.length → ∀ result,
      others rest = some result → others' rest = some result)
    (h : readOthers others state cs = some result) : readOthers others' state cs = some result := by
  obtain ⟨rest, rfl⟩ | hbar := eq_cons_or_ne '|' cs
  · obtain ⟨alternatives, hread, rfl⟩ := Option.map_eq_some_iff.mp h
    rw [readOthers, hothers rest (Nat.lt_succ_self _) alternatives hread]
    rfl
  · rwa [readOthers.eq_2 _ _ _ hbar] at h ⊢

theorem readGroupRest_mono
    {inner inner' : State → List Char → Option ((Expression × State) × List Char)}
    {opening : Opening} {result : (Option Expression × State) × List Char}
    (hinner : ∀ state result, inner state cs = some result → inner' state cs = some result)
    (h : readGroupRest inner state opening cs = some result) :
    readGroupRest inner' state opening cs = some result := by
  cases opening with
  | flags flags => exact h
  | group flags number groups =>
    obtain ⟨body, hbody, hend⟩ := Option.bind_eq_some_iff.mp h
    rw [readGroupRest, hinner _ body hbody]
    exact hend

end

/-! ## Any number of steps that is enough -/

/-- whether what is read with some number of steps, if that is enough, is also read with another one
that is enough, and where more groups may stand inside each other -/
structure ReadsNoLess (fuel fuel' : Nat) : Prop where
  /-- sequences take a step more than three for each character -/
  sequence : ∀ {depth depth'}, depth ≤ depth' → ∀ state (cs : List Char),
    3 * cs.length + 1 ≤ fuel → 3 * cs.length + 1 ≤ fuel' → ∀ result,
      readSequence fuel depth state cs = some result →
        readSequence fuel' depth' state cs = some result
  /-- alternatives take two steps more -/
  alternatives : ∀ {depth depth'}, depth ≤ depth' → ∀ state (cs : List Char),
    3 * cs.length + 2 ≤ fuel → 3 * cs.length + 2 ≤ fuel' → ∀ result,
      apart (readAlternatives fuel depth state cs) = some result →
        apart (readAlternatives fuel' depth' state cs) = some result
  /-- groups take three steps more -/
  group : ∀ {depth depth'}, depth ≤ depth' → ∀ state (cs : List Char),
    3 * cs.length + 3 ≤ fuel → 3 * cs.length + 3 ≤ fuel' → ∀ result,
      apart (readGroup fuel depth state cs) = some result →
        apart (readGroup fuel' depth' state cs) = some result

section

variable {fuel fuel' depth depth' : Nat}

theorem ReadsNoLess.sequence_succ (h : ReadsNoLess fuel fuel') (hdepth : depth ≤ depth')
    (hfuel : 3 * cs.length ≤ fuel) (hfuel' : 3 * cs.length ≤ fuel') {result : State × List Char}
    (hread : readSequence (fuel + 1) depth state cs = some result) :
    readSequence (fuel' + 1) depth' state cs = some result := by
  have hskip := (skipVerbose_suffix state.flags cs).length_le
  rw [readSequence_succ] at hread ⊢
  refine readSequenceRest_mono (local_groupWithin fuel depth) (local_readClass_and_items fuel).1
    (fun state ahead hahead result hread => ?_) (fun flags ahead hahead => ?_)
    (fun state ahead hahead result hread => ?_) hread
  · -- groups may open here, and then there are as many levels left as there
    unfold groupWithin at hread ⊢
    obtain ⟨hopen, hread⟩ := Option.ite_none_left_eq_some.mp hread
    rw [if_neg (by omega)]
    exact h.group (Nat.sub_le_sub_right hdepth 1) state ahead (by omega) (by omega) result hread
  · exact (readClass_steps fuel fuel').1 flags ahead (by omega) (by omega)
  · exact h.sequence hdepth state ahead (by omega) (by omega) result hread

theorem ReadsNoLess.alternatives_succ (h : ReadsNoLess fuel fuel') (hdepth : depth ≤ depth')
    (hfuel : 3 * cs.length + 1 ≤ fuel) (hfuel' : 3 * cs.length + 1 ≤ fuel')
    {result : (Expression × State) × List Char}
    (hread : apart (readAlternatives (fuel + 1) depth state cs) = some result) :
    apart (readAlternatives (fuel' + 1) depth' state cs) = some result := by
  rw [readAlternatives_succ] at hread ⊢
  obtain ⟨⟨done, rest⟩, hdone, hothers⟩ := Option.bind_eq_some_iff.mp hread
  have hrest := (((local_sequences fuel).1 depth _).shrinks hdone).length_le
  rw [h.sequence hdepth _ cs hfuel hfuel' _ hdone]
  refine readOthers_mono (fun ahead (hahead : ahead.length < rest.length) result hread => ?_)
    hothers
  exact h.alternatives hdepth done ahead (by omega) (by omega) result hread

theorem ReadsNoLess.group_succ (h : ReadsNoLess fuel fuel') (hdepth : depth ≤ depth')
    (hfuel : 3 * cs.length + 2 ≤ fuel) (hfuel' : 3 * cs.length + 2 ≤ fuel')
    {result : (Option Expression × State) × List Char}
    (hread : apart (readGroup (fuel + 1) depth state cs) = some result) :
    apart (readGroup (fuel' + 1) depth' state cs) = some result := by
  rw [readGroup_succ] at hread ⊢
  obtain ⟨opening, hopening, hgroup⟩ := Option.bind_eq_some_iff.mp hread
  have hlocal : Local True ['$'] (readOpening state.flags state.groups) :=
    local_readOpening state.flags state.groups
  have hrest := (hlocal.shrinks hopening).length_le
  rw [hopening, Option.bind_some]
  exact readGroupRest_mono (fun state result hread =>
    h.alternatives hdepth state opening.2 (by omega) (by omega) result hread) hgroup

end

/-- **Steps of reading.** What is read with enough steps is also read with any other number of them
that is enough, and where more groups may stand inside each other. -/
theorem readsNoLess (fuel fuel' : Nat) : ReadsNoLess fuel fuel' := by
  induction fuel generalizing fuel' with
  | zero =>
    exact ⟨fun _ _ _ h => absurd h (by omega), fun _ _ _ h => absurd h (by omega),
      fun _ _ _ h => absurd h (by omega)⟩
  | succ fuel ih =>
    cases fuel' with
    | zero =>
      exact ⟨fun _ _ _ _ h => absurd h (by omega), fun _ _ _ _ h => absurd h (by omega),
        fun _ _ _ _ h => absurd h (by omega)⟩
    | succ fuel' =>
      exact ⟨fun hdepth state cs h h' result hread =>
          (ih fuel').sequence_succ hdepth (by omega) (by omega) hread,
        fun hdepth state cs h h' result hread =>
          (ih fuel').alternatives_succ hdepth (by omega) (by omega) hread,
        fun hdepth state cs h h' result hread =>
          (ih fuel').group_succ hdepth (by omega) (by omega) hread⟩

end TableRecipe.Pattern
