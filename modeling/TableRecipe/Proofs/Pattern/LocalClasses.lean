import TableRecipe.Proofs.Pattern.LocalParts

/-!
# Classes in front of a closing parenthesis

A class in brackets has its own end, so that it is read in front of a closing parenthesis as it is
read alone: what goes wrong alone goes on to the end without a bracket.

* `readClass_succ`, `readClassItems_succ` — one step of reading a class;
* `local_readClass` — a class keeps what it is.
-/

namespace TableRecipe.Pattern

variable {skips : Prop} {loss : List Char} {flags : Flags} {c : Char} {cs rest : List Char}

/-! ## Named classes -/

/-- the name of a class and its end, behind the marks at its start -/
def readAsciiName? (negated : Bool) (cs : List Char) : Option (CharSet × List Char) :=
  match cs.dropWhile (· ≠ ':') with
  | ':' :: ']' :: after => (asciiClass? (cs.takeWhile (· ≠ ':'))).map fun set =>
    (if negated then .complement set else set, after)
  | _ => none

theorem readAsciiClass?_caret (cs : List Char) :
    readAsciiClass? (':' :: '^' :: cs) = readAsciiName? true cs := by
  rw [readAsciiClass?, drop_length_takeWhile, readAsciiName?]
  rcases asciiClass? (cs.takeWhile (· ≠ ':')) <;> rfl

theorem readAsciiClass?_plain (h : ∀ rest, cs ≠ '^' :: rest) :
    readAsciiClass? (':' :: cs) = readAsciiName? false cs := by
  rw [readAsciiClass?.eq_2 _ h, drop_length_takeWhile, readAsciiName?]
  rcases asciiClass? (cs.takeWhile (· ≠ ':')) <;> rfl

theorem readAsciiName?_append (negated : Bool) (cs : List Char) :
    readAsciiName? negated (cs ++ closing) =
      (readAsciiName? negated cs).map fun result => (result.1, result.2 ++ closing) := by
  rw [readAsciiName?, readAsciiName?]
  obtain ⟨halone, henclosed⟩ | ⟨after, halone, henclosed, htake⟩ := until_append ':' (by decide) cs
  · rw [halone, henclosed]
    rfl
  · rw [halone, henclosed, htake]
    obtain ⟨behind, rfl⟩ | hend := eq_cons_or_ne ']' after
    · cases asciiClass? (cs.takeWhile (· ≠ ':')) <;> rfl
    · have hend' := append_closing_ne (by decide) hend
      split
      · next heq => exact absurd (List.cons.inj heq).2 (hend' _)
      · split
        · next heq => exact absurd (List.cons.inj heq).2 (hend _)
        · rfl

theorem readAsciiName?_suffix {negated : Bool} {set : CharSet}
    (h : readAsciiName? negated cs = some (set, rest)) : rest <:+ cs := by
  rw [readAsciiName?] at h
  split at h
  · next after hafter =>
    obtain ⟨named, -, heq⟩ := Option.map_eq_some_iff.mp h
    cases heq
    have hbehind : ':' :: ']' :: rest <:+ cs := hafter ▸ List.dropWhile_suffix _
    exact (List.suffix_append [':', ']'] rest).trans hbehind
  · cases h

/-- A named class has its own end. -/
theorem readAsciiClass?_append (cs : List Char) : readAsciiClass? (cs ++ closing) =
    (readAsciiClass? cs).map fun result => (result.1, result.2 ++ closing) := by
  obtain ⟨rest, rfl⟩ | hcolon := eq_cons_or_ne ':' cs
  · obtain ⟨name, rfl⟩ | hcaret := eq_cons_or_ne '^' rest
    · rw [List.cons_append, List.cons_append, readAsciiClass?_caret, readAsciiClass?_caret,
        readAsciiName?_append]
    · rw [List.cons_append, readAsciiClass?_plain hcaret,
        readAsciiClass?_plain (append_closing_ne (by decide) hcaret), readAsciiName?_append]
  · have hcolon' := append_closing_ne (by decide) hcolon
    rw [readAsciiClass?.eq_3 _ hcolon, readAsciiClass?.eq_3 _ hcolon']
    rfl

theorem local_readAsciiClass? : Local skips loss readAsciiClass? where
  shrinks := by
    intro cs set rest h
    obtain ⟨more, rfl⟩ | hcolon := eq_cons_or_ne ':' cs
    · obtain ⟨name, rfl⟩ | hcaret := eq_cons_or_ne '^' more
      · rw [readAsciiClass?_caret] at h
        exact (readAsciiName?_suffix h).trans (List.suffix_append [':', '^'] _)
      · rw [readAsciiClass?_plain hcaret] at h
        exact (readAsciiName?_suffix h).trans (List.suffix_cons _ _)
    · rw [readAsciiClass?.eq_3 _ hcolon] at h
      cases h
  keeps := by
    intro cs
    rw [readAsciiClass?_append]
    rcases readAsciiClass? cs with _ | ⟨set, rest⟩
    · exact .fails
    · exact .same set rest

/-! ## Items and ranges -/

/-- what an escape is in a class -/
def Escape.classItem? : Escape → Option (Char ⊕ CharSet)
  | literal c => some (.inl c)
  | set chars | property chars => some (.inr chars)
  | check _ => none

theorem local_readClassItem_cons (flags : Flags) (c : Char) :
    Local skips ['$'] fun rest => readClassItem flags (c :: rest) := by
  by_cases hc : c = '\\'
  · subst hc
    refine ((local_readEscape flags).bind fun escape =>
      .given escape.classItem? .pure).congr fun cs => ?_
    rw [readClassItem]
    rcases readEscape flags cs with _ | ⟨_ | _ | _ | _, rest⟩ <;> rfl
  · exact (Local.pure (.inl c)).congr fun cs => readClassItem.eq_3 _ _ _ hc

theorem local_readClassItem (flags : Flags) : Local skips ['$'] (readClassItem flags) :=
  .first rfl (local_readClassItem_cons flags)

theorem length_readClassItem {item : Char ⊕ CharSet}
    (h : readClassItem flags cs = some (item, rest)) : rest.length < cs.length := by
  cases cs with
  | nil => cases h
  | cons c more =>
    have hlocal : Local True ['$'] fun rest => readClassItem flags (c :: rest) :=
      local_readClassItem_cons flags c
    exact Nat.lt_succ_of_le (hlocal.shrinks h).length_le

/-- the range between two characters, the first of which comes first -/
def rangeBetween? : Char ⊕ CharSet → Char ⊕ CharSet → Option CharSet
  | .inl first, .inl last =>
    if first.toNat ≤ last.toNat then some (.range first.toNat last.toNat) else none
  | _, _ => none

/-- the last item of a range, whose first one is given -/
def readRangeLast (flags : Flags) (item : Char ⊕ CharSet) (cs : List Char) :
    Option (CharSet × List Char) :=
  (readClassItem flags cs).bind fun result =>
    (rangeBetween? item result.1).bind fun set => some (set, result.2)

/-- the rest of a range, whose first item is given -/
def readRangeEnd (flags : Flags) (item : Char ⊕ CharSet) : List Char → Option (CharSet × List Char)
  | [] => none
  | '-' :: more =>
    let ahead := skipVerbose flags more
    if ahead.head? = some ']' ∨ ahead.head? = some '-' then some (item.elim .single id, '-' :: more)
    else readRangeLast flags item ahead
  | rest => some (item.elim .single id, rest)

theorem readClassRange_eq (flags : Flags) (cs : List Char) : readClassRange flags cs =
    (readClassItem flags cs).bind fun result =>
      readRangeEnd flags result.1 (skipVerbose flags result.2) := by
  rw [readClassRange]
  refine bind_congr fun result => ?_
  obtain ⟨item, rest⟩ := result
  dsimp only
  generalize skipVerbose flags rest = rest
  unfold readRangeEnd
  obtain ⟨more, rfl⟩ | hhyphen := eq_cons_or_ne '-' rest
  · dsimp only
    simp only [Bool.or_eq_true, decide_eq_true_eq]
    refine if_congr Iff.rfl (by cases item <;> rfl) (bind_congr fun result => ?_)
    obtain ⟨last, rest⟩ := result
    rcases item with first | set <;> rcases last with last | set <;> try rfl
    dsimp only [rangeBetween?]
    split <;> rfl
  · rcases rest with _ | ⟨c, rest⟩
    · rfl
    · have hc : c ≠ '-' := fun hc => hhyphen rest (hc ▸ rfl)
      cases item <;> simp_all

theorem local_readRangeLast (flags : Flags) (item : Char ⊕ CharSet) :
    Local skips ['$'] (readRangeLast flags item) :=
  (local_readClassItem flags).bind fun last => .given (rangeBetween? item last) .pure

theorem local_readRangeEnd (flags : Flags) (item : Char ⊕ CharSet) :
    Local True closing (readRangeEnd flags item) := by
  have hlast : Local True closing (readRangeLast flags item) :=
    (local_readRangeLast flags item).mono id (List.suffix_cons _ _)
  refine ⟨?_, ?_⟩
  · intro cs set rest h
    cases cs with
    | nil => cases h
    | cons c more =>
      by_cases hc : c = '-'
      · subst hc
        rw [readRangeEnd] at h
        split at h
        · cases h
          exact List.suffix_refl _
        · exact ((hlast.shrinks h).trans (skipVerbose_suffix _ _)).trans (List.suffix_cons _ _)
      · rw [readRangeEnd.eq_3 _ _ _ (by simp) (by simpa using hc)] at h
        cases h
        exact List.suffix_refl _
  · intro cs
    cases cs with
    | nil => exact .taken _ (List.suffix_refl _)
    | cons c more =>
      by_cases hc : c = '-'
      · subst hc
        rw [List.cons_append, readRangeEnd, readRangeEnd]
        obtain hsame | ⟨hnone, hnone'⟩ := skipVerbose_append flags more
        · rw [hsame]
          generalize skipVerbose flags more = ahead
          have hkeeps := hlast.keeps ahead
          cases ahead with
          | nil =>
            -- the parenthesis would be the end of the range
            exact hkeeps
          | cons d ahead =>
            have hhead : (d :: ahead ++ closing).head? = (d :: ahead).head? := rfl
            rw [hhead]
            by_cases hd : (d :: ahead).head? = some ']' ∨ (d :: ahead).head? = some '-'
            · rw [if_pos hd, if_pos hd]
              exact .same _ ('-' :: more)
            · rw [if_neg hd, if_neg hd]
              exact hkeeps
        · rw [hnone, hnone']
          exact .fails
      · rw [List.cons_append, readRangeEnd.eq_3 _ _ _ (by simp) (by simpa using hc),
          readRangeEnd.eq_3 _ _ _ (by simp) (by simpa using hc)]
        exact .same _ (c :: more)

theorem local_readClassRange (flags : Flags) : Local True closing (readClassRange flags) :=
  (((local_readClassItem flags).mono id (List.suffix_cons _ _)).bind fun item =>
    (local_skipVerbose flags).bind fun _ => local_readRangeEnd flags item).congr
      (readClassRange_eq flags)

theorem length_readClassRange {set : CharSet}
    (h : readClassRange flags cs = some (set, rest)) : rest.length < cs.length := by
  rw [readClassRange_eq] at h
  obtain ⟨⟨item, behind⟩, hitem, hend⟩ := Option.bind_eq_some_iff.mp h
  have hrest := (local_readRangeEnd flags item).shrinks hend
  exact Nat.lt_of_le_of_lt (hrest.trans (skipVerbose_suffix flags behind)).length_le
    (length_readClassItem hitem)

/-! ## The start of a class -/

theorem local_leadingHyphens (flags : Flags) :
    Local True loss fun cs => some (leadingHyphens flags cs) := by
  have hskip : Local True loss fun cs => some (false, skipVerbose flags cs) :=
    (local_skipVerbose flags).map fun _ => false
  refine ⟨?_, ?_⟩
  · intro cs
    induction cs with
    | nil =>
      intro found rest h
      exact hskip.shrinks h
    | cons c more ih =>
      intro found rest h
      by_cases hc : c = '-'
      · subst hc
        cases h
        exact (ih rfl).trans (List.suffix_cons _ _)
      · rw [leadingHyphens.eq_2 _ _ (by simp [hc])] at h
        exact hskip.shrinks h
  · intro cs
    induction cs with
    | nil => exact hskip.keeps []
    | cons c more ih =>
      by_cases hc : c = '-'
      · subst hc
        rw [List.cons_append, leadingHyphens, leadingHyphens]
        generalize leadingHyphens flags more = alone,
          leadingHyphens flags (more ++ closing) = enclosed at ih
        cases ih with
        | same _ rest => exact .same true rest
        | comment _ _ => exact .comment trivial true
      · rw [List.cons_append, leadingHyphens.eq_2 _ _ (by simp [hc]),
          leadingHyphens.eq_2 _ _ (by simp [hc])]
        exact hskip.keeps (c :: more)

/-- whether a class is a complement, by the mark at its start -/
def takeCaret (flags : Flags) : List Char → Bool × List Char
  | '^' :: rest => (true, skipVerbose flags rest)
  | cs => (false, cs)

/-- the first items of a class: hyphens or a bracket that stand for themselves -/
def takeBracket : Bool → List Char → CharSet × List Char
  | false, ']' :: rest => (.single ']', rest)
  | true, cs => (.single '-', cs)
  | false, cs => (.empty, cs)

/-- the start of a class: whether it is a complement, and its first items -/
def readClassStart (flags : Flags) (cs : List Char) : Option ((Bool × CharSet) × List Char) :=
  let (negated, cs) := takeCaret flags (skipVerbose flags cs)
  let (hyphens, cs) := leadingHyphens flags cs
  let (items, cs) := takeBracket hyphens cs
  some ((negated, items), cs)

theorem local_takeCaret (flags : Flags) :
    Local True ['$'] fun cs => some (takeCaret flags cs) :=
  .headed '^' (by decide) ((local_skipVerbose flags).map fun _ => true) (.pure false)
    fun cs hcs => by rw [takeCaret.eq_2 _ _ hcs]

theorem local_takeBracket (hyphens : Bool) :
    Local skips ['$'] fun cs => some (takeBracket hyphens cs) := by
  cases hyphens with
  | true => exact .pure (CharSet.single '-')
  | false =>
    exact .headed ']' (by decide) (.pure (CharSet.single ']')) (.pure CharSet.empty)
      fun cs hcs => by rw [takeBracket.eq_3 _ hcs]

theorem local_readClassStart (flags : Flags) : Local True ['$'] (readClassStart flags) :=
  (((local_skipVerbose flags).bind fun _ => local_takeCaret flags).bind fun negated =>
    (((local_leadingHyphens flags).bind local_takeBracket).map fun items =>
      (negated, items))).congr fun _ => rfl

/-! ## One step of reading a class -/

/-- the operation at the front of what is left of a class -/
def takeOperation? : List Char → Option (SetOperation × List Char)
  | '&' :: '&' :: rest => some (.intersection, rest)
  | '-' :: '-' :: rest => some (.difference, rest)
  | '~' :: '~' :: rest => some (.symmetricDifference, rest)
  | _ => none

theorem takeOperation?_append (cs : List Char) : takeOperation? (cs ++ closing) =
    (takeOperation? cs).map fun result => (result.1, result.2 ++ closing) := by
  rcases cs with _ | ⟨c, _ | ⟨d, rest⟩⟩
  · rfl
  · simp only [takeOperation?, List.cons_append, List.nil_append]
    split <;> simp_all
  · simp only [takeOperation?, List.cons_append]
    split <;> simp_all

/-- an item of a class, a range of it, or a class in it; `nested` reads such a class -/
def readClassPart (nested : List Char → Option (CharSet × List Char)) (flags : Flags) :
    List Char → Option (CharSet × List Char)
  | '[' :: rest => (readAsciiClass? rest).or (nested rest)
  | cs => readClassRange flags cs

/-- what is left of a class, where no blanks stand; `nested` reads a class in it, and `more` what is
left behind the next part of it -/
def readClassRest (nested : List Char → Option (CharSet × List Char))
    (more : Option (SetOperation × CharSet) → CharSet → List Char → Option (CharSet × List Char))
    (flags : Flags) (pending : Option (SetOperation × CharSet)) (items : CharSet) (cs : List Char) :
    Option (CharSet × List Char) :=
  match takeOperation? cs, cs with
  | some (operation, rest), _ => more (some (operation, combine flags pending items)) .empty rest
  | none, ']' :: rest => some (combine flags pending items, rest)
  | none, cs => (readClassPart nested flags cs).bind fun result =>
    more pending (.either items result.1) result.2

theorem readClass_succ (fuel : Nat) (flags : Flags) (cs : List Char) :
    readClass (fuel + 1) flags cs = (readClassStart flags cs).bind fun start =>
      (readClassItems fuel flags none start.1.2 start.2).map fun result =>
        (if start.1.1 then .complement (foldCase flags result.1) else foldCase flags result.1,
          result.2) :=
  rfl

theorem readClassItems_succ (fuel : Nat) (flags : Flags) (pending : Option (SetOperation × CharSet))
    (items : CharSet) (cs : List Char) : readClassItems (fuel + 1) flags pending items cs =
      readClassRest (readClass fuel flags) (readClassItems fuel flags) flags pending items
        (skipVerbose flags cs) := by
  rw [readClassItems]
  generalize skipVerbose flags cs = cs
  split
  · rfl
  · rfl
  · rfl
  · rfl
  · rfl
  · next rest =>
    show _ = ((readAsciiClass? rest).or (readClass fuel flags rest)).bind _
    cases readAsciiClass? rest <;> rfl
  · next hnil hend hboth hless heither hclass =>
    unfold readClassRest
    rw [takeOperation?.eq_4 _ hboth hless heither]
    split
    · next heq => cases heq
    · exact absurd rfl (hend _)
    · rw [readClassPart.eq_2 _ _ _ hclass]
      rfl

theorem local_takeOperation? : Local skips loss takeOperation? where
  shrinks := by
    intro cs operation rest h
    unfold takeOperation? at h
    split at h
    · cases h
      exact List.suffix_append ['&', '&'] rest
    · cases h
      exact List.suffix_append ['-', '-'] rest
    · cases h
      exact List.suffix_append ['~', '~'] rest
    · cases h
  keeps := by
    intro cs
    rw [takeOperation?_append]
    rcases takeOperation? cs with _ | ⟨operation, rest⟩
    · exact .fails
    · exact .same operation rest

section

variable {nested : List Char → Option (CharSet × List Char)}
  {more : Option (SetOperation × CharSet) → CharSet → List Char → Option (CharSet × List Char)}

theorem local_readClassPart_bracket (hnested : Local False ['$'] nested) (flags : Flags) :
    Local False ['$'] fun rest => readClassPart nested flags ('[' :: rest) where
  shrinks := by
    intro cs set rest h
    obtain hnamed | ⟨-, hclass⟩ := Option.or_eq_some_iff.mp h
    · have hlocal : Local False ['$'] readAsciiClass? := local_readAsciiClass?
      exact hlocal.shrinks hnamed
    · exact hnested.shrinks hclass
  keeps := by
    intro cs
    show Keeps False ['$'] ((readAsciiClass? cs).or (nested cs))
      ((readAsciiClass? (cs ++ closing)).or (nested (cs ++ closing)))
    rw [readAsciiClass?_append]
    rcases readAsciiClass? cs with _ | ⟨set, rest⟩
    · exact hnested.keeps cs
    · exact .same set rest

theorem local_readClassPart (hnested : Local False ['$'] nested) (flags : Flags) :
    Local True closing (readClassPart nested flags) :=
  .headed '[' (by decide)
    ((local_readClassPart_bracket hnested flags).mono False.elim (List.suffix_cons _ _))
    (local_readClassRange flags) fun _ => readClassPart.eq_2 _ _ _

theorem length_readClassPart (hnested : Local False ['$'] nested) {set : CharSet}
    (h : readClassPart nested flags cs = some (set, rest)) : rest.length < cs.length := by
  obtain ⟨more, rfl⟩ | hclass := eq_cons_or_ne '[' cs
  · exact Nat.lt_succ_of_le ((local_readClassPart_bracket hnested flags).shrinks h).length_le
  · rw [readClassPart.eq_2 _ _ _ hclass] at h
    exact length_readClassRange h

theorem local_readClassRest (hnested : Local False ['$'] nested)
    (hmore : ∀ pending items, Local False ['$'] (more pending items))
    (hstuck : ∀ pending items rest, rest <:+ closing → more pending items rest = none)
    (flags : Flags) (pending : Option (SetOperation × CharSet)) (items : CharSet) :
    Local False ['$'] (readClassRest nested more flags pending items) := by
  refine .choose fun cs => ?_
  -- the parenthesis begins no operation and ends no class, so that both go the same way
  unfold readClassRest
  rw [takeOperation?_append]
  rcases hoperation : takeOperation? cs with _ | ⟨operation, rest⟩
  · obtain ⟨rest, rfl⟩ | hend := eq_cons_or_ne ']' cs
    · exact ⟨fun cs => if cs.head? = some ']' then some (combine flags pending items, cs.tail)
        else none, .headed ']' (by decide) (.pure (combine flags pending items)) .fail
        fun cs hcs => if_neg fun hhead => (List.head?_eq_some_iff.mp hhead).elim hcs, rfl, rfl⟩
    · refine ⟨_, (local_readClassPart hnested flags).bind_stuck
        (hmore pending <| .either items ·) (fun set => hstuck pending (.either items set)), ?_, ?_⟩
      · split
        · next heq => cases heq
        · exact absurd rfl (hend _)
        · rfl
      · split
        · next heq => cases heq
        · next heq => exact absurd heq (append_closing_ne (by decide) hend _)
        · rfl
  · refine ⟨_, local_takeOperation?.bind fun operation =>
      hmore (some (operation, combine flags pending items)) .empty, ?_, ?_⟩
    · rw [hoperation]
      rfl
    · rw [takeOperation?_append, hoperation]
      rfl

end

/-! ## Whole classes -/

/-- No class ends in what is behind a pattern. -/
theorem readClassItems_stuck (fuel : Nat) (flags : Flags)
    (pending : Option (SetOperation × CharSet)) (items : CharSet) (rest : List Char)
    (h : rest <:+ closing) : readClassItems fuel flags pending items rest = none := by
  have hnil (fuel : Nat) (items : CharSet) : readClassItems fuel flags pending items [] = none := by
    cases fuel <;> rfl
  have hdollar : skipVerbose flags ['$'] = ['$'] :=
    skipVerbose_of_suffix_closing flags (List.suffix_cons _ _)
  have hlast (fuel : Nat) (items : CharSet) :
      readClassItems fuel flags pending items ['$'] = none := by
    cases fuel with
    | zero => rfl
    | succ fuel =>
      rw [readClassItems_succ, hdollar]
      rfl
  obtain rfl | rfl | rfl := eq_of_suffix_closing h
  · exact hnil fuel items
  · exact hlast fuel items
  · -- the parenthesis is an item, and so is the anchor behind it
    cases fuel with
    | zero => rfl
    | succ fuel =>
      have hpart : readClassRange flags closing = some (.single ')', ['$']) := by
        rw [readClassRange_eq]
        show readRangeEnd flags (.inl ')') (skipVerbose flags ['$']) = _
        rw [hdollar]
        rfl
      rw [readClassItems_succ, skipVerbose_of_suffix_closing flags h]
      show (readClassRange flags closing).bind _ = none
      rw [hpart]
      exact hlast fuel _

theorem local_readClass_and_items (fuel : Nat) :
    (∀ flags, Local False ['$'] (readClass fuel flags)) ∧
      ∀ flags pending items, Local False ['$'] (readClassItems fuel flags pending items) := by
  induction fuel with
  | zero => exact ⟨fun flags => .fail, fun flags pending items => .fail⟩
  | succ fuel ih =>
    refine ⟨fun flags => ?_, fun flags pending items => ?_⟩
    · have hset (start : Bool × CharSet) : Local False ['$'] fun cs =>
          (readClassItems fuel flags none start.2 cs).map fun result =>
            (if start.1 then .complement (foldCase flags result.1) else foldCase flags result.1,
              result.2) :=
        (ih.2 flags none start.2).map fun set =>
          if start.1 then .complement (foldCase flags set) else foldCase flags set
      refine (((local_readClassStart flags).mono id (List.suffix_cons _ _)).bind_stuck hset
        ?_).congr (readClass_succ fuel flags)
      intro start rest hrest
      rw [readClassItems_stuck fuel flags none start.2 rest hrest]
      rfl
    · refine ((local_skipVerbose flags).bind_stuck
        (fun _ => local_readClassRest (ih.1 flags) (ih.2 flags) (readClassItems_stuck fuel flags)
          flags pending items) ?_).congr (readClassItems_succ fuel flags pending items)
      intro _ rest hrest
      rw [← readClassItems_stuck (fuel + 1) flags pending items rest hrest, readClassItems_succ,
        skipVerbose_of_suffix_closing flags hrest]

end TableRecipe.Pattern
