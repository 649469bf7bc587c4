import TableRecipe.Proofs.Pattern.Parts

/-!
# Reading in front of a closing parenthesis

A pattern in a group is read in front of a closing parenthesis and an anchor. A reader reads there
what it reads of the pattern alone, except that a comment may go on over what is behind, and that
what has no end of its own may take the parenthesis with it. Readers that are put together of such
readers are such readers, too.

* `Keeps` — what a reader makes of a pattern alone, and of the pattern in front of the parenthesis;
* `Local` — a reader that keeps what it reads, and leaves the end of what it is given;
* `local_skipVerbose`, `local_until`, … — the readers of blanks, digits and names.
-/

namespace TableRecipe.Pattern

/-- what stands behind a pattern in a group -/
abbrev closing : List Char := [')', '$']

variable {α β : Type} {skips skips' : Prop} {loss loss' : List Char} {flags : Flags} {c : Char}
  {cs rest : List Char}

/-- what a reader makes of a pattern alone, and of the pattern in front of what closes it; a comment
may go on, if comments are skipped, and what has no end of its own leaves at most `loss` of what is
behind -/
inductive Keeps (skips : Prop) (loss : List Char) :
    (alone enclosed : Option (α × List Char)) → Prop where
  /-- the same -/
  | same (x : α) (rest : List Char) : Keeps skips loss (some (x, rest)) (some (x, rest ++ closing))
  /-- the same, but a comment goes on to the end -/
  | comment (h : skips) (x : α) : Keeps skips loss (some (x, [])) (some (x, []))
  /-- nothing -/
  | fails : Keeps skips loss none none
  /-- nothing alone, and something with the parenthesis -/
  | taken (x : α) {rest : List Char} (h : rest <:+ loss) : Keeps skips loss none (some (x, rest))

/-- whether a reader leaves the end of what it is given, and reads in front of what closes a group
what it reads alone -/
structure Local (skips : Prop) (loss : List Char) (read : List Char → Option (α × List Char)) :
    Prop where
  /-- what is left is the end of what was there -/
  shrinks : ∀ {cs x rest}, read cs = some (x, rest) → rest <:+ cs
  /-- what is behind makes no difference -/
  keeps : ∀ cs, Keeps skips loss (read cs) (read (cs ++ closing))

theorem Keeps.mono {alone enclosed : Option (α × List Char)} (h : Keeps skips loss alone enclosed)
    (hskips : skips → skips') (hloss : loss <:+ loss') : Keeps skips' loss' alone enclosed := by
  cases h with
  | same x rest => exact .same x rest
  | comment hskip x => exact .comment (hskips hskip) x
  | fails => exact .fails
  | taken x hrest => exact .taken x (hrest.trans hloss)

/-- A pattern begins with a character, or not. -/
theorem eq_cons_or_ne (c : Char) (cs : List Char) :
    (∃ rest, cs = c :: rest) ∨ ∀ rest, cs ≠ c :: rest := by
  by_cases h : ∃ rest, cs = c :: rest
  · exact .inl h
  · exact .inr fun rest hrest => h ⟨rest, hrest⟩

theorem append_closing_ne (hc : c ≠ ')') (h : ∀ rest, cs ≠ c :: rest) (rest : List Char) :
    cs ++ closing ≠ c :: rest := by
  cases cs with
  | nil => exact fun heq => hc (List.cons.inj heq).1.symm
  | cons d more =>
    intro heq
    exact h more (congrArg (· :: more) (List.cons.inj heq).1)

namespace Local

variable {read read' : List Char → Option (α × List Char)}
  {next : α → List Char → Option (β × List Char)}

theorem mono (h : Local skips loss read) (hskips : skips → skips') (hloss : loss <:+ loss') :
    Local skips' loss' read :=
  ⟨h.shrinks, fun cs => (h.keeps cs).mono hskips hloss⟩

/-- A reader that skips no comments may stand where they are skipped. -/
theorem skipping (h : Local False loss read) : Local skips loss read :=
  h.mono False.elim (List.suffix_refl _)

theorem congr (h : Local skips loss read) (heq : ∀ cs, read' cs = read cs) :
    Local skips loss read' := by
  obtain rfl : read' = read := funext heq
  exact h

/-- A reader that takes nothing. -/
theorem pure (x : α) : Local skips loss fun cs => some (x, cs) where
  shrinks := by
    intro cs y rest h
    obtain ⟨-, rfl⟩ := Prod.mk.inj (Option.some.inj h)
    exact List.suffix_refl cs
  keeps := fun cs => .same x cs

theorem fail : Local skips loss fun _ => (none : Option (α × List Char)) where
  shrinks := by
    intro cs x rest h
    cases h
  keeps := fun _ => .fails

/-- A reader that needs something that does not depend on what it is given. -/
theorem given {next : β → List Char → Option (α × List Char)} (x : Option β)
    (h : ∀ y, Local skips loss (next y)) :
    Local skips loss fun cs => x.bind fun y => next y cs := by
  cases x with
  | none => exact fail
  | some y => exact h y

theorem ite {p : Prop} [Decidable p] (h : Local skips loss read) (h' : Local skips loss read') :
    Local skips loss fun cs => if p then read cs else read' cs := by
  by_cases hp : p
  · exact h.congr fun cs => if_pos hp
  · exact h'.congr fun cs => if_neg hp

/-- One reader after another. -/
theorem bind (h : Local skips loss read) (hnext : ∀ x, Local skips loss (next x)) :
    Local skips loss fun cs => (read cs).bind fun result => next result.1 result.2 where
  shrinks := by
    intro cs y rest hread
    obtain ⟨⟨x, between⟩, hx, hy⟩ := Option.bind_eq_some_iff.mp hread
    exact ((hnext x).shrinks hy).trans (h.shrinks hx)
  keeps := by
    intro cs
    have hkeeps := h.keeps cs
    generalize read cs = alone, read (cs ++ closing) = enclosed at hkeeps
    cases hkeeps with
    | same x rest => exact (hnext x).keeps rest
    | comment hskip x =>
      -- the comment has taken what is behind, so that both go on with nothing
      show Keeps skips loss (next x []) (next x [])
      rcases hx : next x [] with _ | ⟨y, rest⟩
      · exact .fails
      · obtain rfl := List.suffix_nil.mp ((hnext x).shrinks hx)
        exact .comment hskip y
    | fails => exact .fails
    | @taken x rest hrest =>
      show Keeps skips loss none (next x rest)
      rcases hx : next x rest with _ | ⟨y, more⟩
      · exact .fails
      · exact .taken y (((hnext x).shrinks hx).trans hrest)

theorem map (f : α → β) (h : Local skips loss read) :
    Local skips loss fun cs => (read cs).map fun result => (f result.1, result.2) :=
  (h.bind fun x => pure (f x)).congr fun cs => by cases read cs <;> rfl

/-- What reads a part of a pattern and then an end that is not there reads nothing, whether the
pattern is alone or not. -/
theorem bind_stuck (h : Local True closing read) (hnext : ∀ x, Local False loss (next x))
    (hstuck : ∀ x rest, rest <:+ closing → next x rest = none) :
    Local False loss fun cs => (read cs).bind fun result => next result.1 result.2 where
  shrinks := by
    intro cs y rest hread
    obtain ⟨⟨x, between⟩, hx, hy⟩ := Option.bind_eq_some_iff.mp hread
    exact ((hnext x).shrinks hy).trans (h.shrinks hx)
  keeps := by
    intro cs
    have hkeeps := h.keeps cs
    generalize read cs = alone, read (cs ++ closing) = enclosed at hkeeps
    cases hkeeps with
    | same x rest => exact (hnext x).keeps rest
    | comment _ x =>
      show Keeps False loss (next x []) (next x [])
      rw [hstuck x [] (List.nil_suffix)]
      exact .fails
    | fails => exact .fails
    | @taken x rest hrest =>
      show Keeps False loss none (next x rest)
      rw [hstuck x rest hrest]
      exact .fails

/-- A reader that takes the first character, whatever it is, and goes on. -/
theorem first (hnil : read [] = none) (h : ∀ c, Local skips ['$'] fun rest => read (c :: rest)) :
    Local skips ['$'] read where
  shrinks := by
    intro cs x rest hread
    cases cs with
    | nil => cases hnil.symm.trans hread
    | cons c more => exact ((h c).shrinks hread).trans (List.suffix_cons c more)
  keeps := by
    intro cs
    cases cs with
    | nil =>
      rw [hnil]
      rcases hread : read ([] ++ closing) with _ | ⟨x, rest⟩
      · exact .fails
      · exact .taken x ((h ')').shrinks hread)
    | cons c more => exact (h c).keeps more

/-- A reader that reads each pattern like some reader does. -/
theorem choose (h : ∀ cs, ∃ read', Local skips loss read' ∧ read cs = read' cs ∧
    read (cs ++ closing) = read' (cs ++ closing)) : Local skips loss read where
  shrinks := by
    intro cs x rest hread
    obtain ⟨read', hlocal, halone, -⟩ := h cs
    exact hlocal.shrinks (halone ▸ hread)
  keeps := by
    intro cs
    obtain ⟨read', hlocal, halone, henclosed⟩ := h cs
    rw [halone, henclosed]
    exact hlocal.keeps cs

/-- A reader that takes the first character if it is a certain one. -/
theorem headed (c : Char) (hc : c ≠ ')') (hhead : Local skips loss fun rest => read (c :: rest))
    (hother : Local skips loss read') (heq : ∀ cs, (∀ rest, cs ≠ c :: rest) → read cs = read' cs) :
    Local skips loss read where
  shrinks := by
    intro cs x rest hread
    obtain ⟨more, rfl⟩ | hne := eq_cons_or_ne c cs
    · exact (hhead.shrinks hread).trans (List.suffix_cons c more)
    · exact hother.shrinks (heq cs hne ▸ hread)
  keeps := by
    intro cs
    obtain ⟨more, rfl⟩ | hne := eq_cons_or_ne c cs
    · exact hhead.keeps more
    · -- nothing, too, begins otherwise, as the parenthesis does
      rw [heq cs hne, heq _ (append_closing_ne hc hne)]
      exact hother.keeps cs

end Local

/-! ## Blanks, digits, names -/

theorem skipVerbose_suffix (flags : Flags) (cs : List Char) : skipVerbose flags cs <:+ cs := by
  suffices h : skipVerbose flags cs <:+ cs ∧ skipVerbose.skipComment flags cs <:+ cs from h.1
  induction cs with
  | nil => exact ⟨List.suffix_refl _, List.suffix_refl _⟩
  | cons c rest ih =>
    have hcons : rest <:+ c :: rest := List.suffix_cons c rest
    rw [skipVerbose, skipVerbose.skipComment]
    refine ⟨?_, ?_⟩
    · split
      · exact List.suffix_refl _
      · split
        · exact ih.1.trans hcons
        · split
          · exact ih.2.trans hcons
          · exact List.suffix_refl _
    · split
      · exact ih.1.trans hcons
      · exact ih.2.trans hcons

theorem eq_of_suffix_closing (h : rest <:+ closing) :
    rest = [] ∨ rest = ['$'] ∨ rest = closing := by
  obtain rfl | h := List.suffix_cons_iff.mp h
  · exact .inr (.inr rfl)
  · obtain rfl | h := List.suffix_cons_iff.mp h
    · exact .inr (.inl rfl)
    · exact .inl (List.suffix_nil.mp h)

theorem skipVerbose_of_suffix_closing (flags : Flags) (h : rest <:+ closing) :
    skipVerbose flags rest = rest := by
  have hstay {c : Char} (hblank : Letter.isBlank c = false) (hc : c ≠ '#') (more : List Char) :
      skipVerbose flags (c :: more) = c :: more := by
    rw [skipVerbose, hblank]
    simp [hc]
  obtain rfl | rfl | rfl := eq_of_suffix_closing h
  · rfl
  · exact hstay (by decide +kernel) (by decide) []
  · exact hstay (by decide +kernel) (by decide) ['$']

/-- Blanks and comments are skipped up to the parenthesis, unless a comment goes on. -/
theorem skipVerbose_append (flags : Flags) (cs : List Char) :
    skipVerbose flags (cs ++ closing) = skipVerbose flags cs ++ closing ∨
      skipVerbose flags cs = [] ∧ skipVerbose flags (cs ++ closing) = [] := by
  suffices h : (skipVerbose flags (cs ++ closing) = skipVerbose flags cs ++ closing ∨
      skipVerbose flags cs = [] ∧ skipVerbose flags (cs ++ closing) = []) ∧
    (skipVerbose.skipComment flags (cs ++ closing) = skipVerbose.skipComment flags cs ++ closing ∨
      skipVerbose.skipComment flags cs = [] ∧
        skipVerbose.skipComment flags (cs ++ closing) = []) from h.1
  induction cs with
  | nil => exact ⟨.inl (skipVerbose_of_suffix_closing flags (List.suffix_refl _)), .inr ⟨rfl, rfl⟩⟩
  | cons c rest ih =>
    simp only [List.cons_append, skipVerbose, skipVerbose.skipComment]
    refine ⟨?_, ?_⟩
    · split
      · exact .inl rfl
      · split
        · exact ih.1
        · split
          · exact ih.2
          · exact .inl rfl
    · split
      · exact ih.1
      · exact ih.2

theorem local_skipVerbose (flags : Flags) :
    Local True loss fun cs => some ((), skipVerbose flags cs) where
  shrinks := by
    intro cs x rest h
    obtain ⟨-, rfl⟩ := Prod.mk.inj (Option.some.inj h)
    exact skipVerbose_suffix flags cs
  keeps := by
    intro cs
    obtain hkeeps | ⟨hnone, hnone'⟩ := skipVerbose_append flags cs
    · rw [hkeeps]
      exact .same () _
    · rw [hnone, hnone']
      exact .comment trivial ()

/-- Characters of a kind to which the parenthesis does not belong are the same with what is
behind. -/
theorem span_append {p : Char → Bool} (hclosing : p ')' = false) (cs : List Char) :
    (cs ++ closing).takeWhile p = cs.takeWhile p ∧
      (cs ++ closing).dropWhile p = cs.dropWhile p ++ closing := by
  induction cs with
  | nil => simp [hclosing]
  | cons c rest ih => cases hc : p c <;> simp [hc, ih]

theorem drop_length_takeWhile (p : Char → Bool) (cs : List Char) :
    cs.drop (cs.takeWhile p).length = cs.dropWhile p := by
  induction cs with
  | nil => rfl
  | cons c rest ih => cases hc : p c <;> simp [hc, ih]

theorem local_takeWhile {p : Char → Bool} (hclosing : p ')' = false) :
    Local skips loss fun cs => some (cs.takeWhile p, cs.dropWhile p) where
  shrinks := by
    intro cs x rest h
    obtain ⟨-, rfl⟩ := Prod.mk.inj (Option.some.inj h)
    exact List.dropWhile_suffix p
  keeps := by
    intro cs
    rw [(span_append hclosing cs).1, (span_append hclosing cs).2]
    exact .same _ _

/-- Up to a character that does not belong to what is behind, everything is as it is alone. -/
theorem until_append (stop : Char) (hclosing : stop ∉ closing) (cs : List Char) :
    (cs.dropWhile (· ≠ stop) = [] ∧ (cs ++ closing).dropWhile (· ≠ stop) = []) ∨
      ∃ after, cs.dropWhile (· ≠ stop) = stop :: after ∧
        (cs ++ closing).dropWhile (· ≠ stop) = stop :: (after ++ closing) ∧
        (cs ++ closing).takeWhile (· ≠ stop) = cs.takeWhile (· ≠ stop) := by
  induction cs with
  | nil =>
    simp only [List.mem_cons, List.not_mem_nil, or_false, not_or] at hclosing
    simp [Ne.symm hclosing.1, Ne.symm hclosing.2]
  | cons c rest ih => by_cases hc : c = stop <;> simp_all

theorem local_until (stop : Char) (hclosing : stop ∉ closing) :
    Local skips loss fun cs => match cs.dropWhile (· ≠ stop) with
      | [] => none
      | _ :: after => some (cs.takeWhile (· ≠ stop), after) where
  shrinks := by
    intro cs x rest h
    split at h
    · cases h
    · next after hafter =>
      cases h
      exact (List.suffix_cons _ _).trans (hafter ▸ List.dropWhile_suffix _)
  keeps := by
    intro cs
    obtain ⟨halone, henclosed⟩ | ⟨after, halone, henclosed, htake⟩ := until_append stop hclosing cs
    · rw [halone, henclosed]
      exact .fails
    · rw [halone, henclosed, htake]
      exact .same _ after

/-- A fixed number of characters. -/
theorem local_take (count : Nat) :
    Local skips ['$'] fun cs =>
      if (cs.take count).length = count then some (cs.take count, cs.drop count) else none where
  shrinks := by
    intro cs x rest h
    obtain ⟨-, hx⟩ := Option.ite_none_right_eq_some.mp h
    cases hx
    exact List.drop_suffix _ _
  keeps := by
    intro cs
    by_cases hcount : count ≤ cs.length
    · rw [if_pos (by rw [List.length_take]; omega),
        if_pos (by rw [List.length_take, List.length_append]; omega),
        List.take_append_of_le_length hcount, List.drop_append_of_le_length hcount]
      exact .same _ _
    · -- too few characters alone may be enough with what is behind
      rw [if_neg (by rw [List.length_take]; omega)]
      split
      · obtain ⟨more, rfl⟩ : ∃ more, count = cs.length + (more + 1) :=
          ⟨count - cs.length - 1, by omega⟩
        refine .taken _ ?_
        rw [List.drop_append, List.drop_eq_nil_of_le (by omega), Nat.add_sub_cancel_left]
        exact List.drop_suffix more ['$']
      · exact .fails

end TableRecipe.Pattern
