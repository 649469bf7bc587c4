import TableRecipe.Proofs.Pattern.Local

/-!
# Parts of patterns in front of a closing parenthesis

* `local_readEscape` — escapes;
* `local_readBounds?`, `local_repeatLast` — repetitions;
* `local_readFlags`, `local_readName?`, `local_readOpening` — the start of a group.
-/

namespace TableRecipe.Pattern

variable {α β : Type} {skips : Prop} {loss : List Char} {flags : Flags} {c : Char}
  {cs rest : List Char}

/-! ## Escapes -/

theorem local_readHex (digits : Nat) : Local skips ['$'] (readHex digits) := by
  refine .headed '\x7b' (by decide) ?_ ((local_take digits).bind fun body =>
    .given (hexNumber? body) fun n => .given (charOf? n) .pure) fun cs hcs => ?_
  · refine ((local_until '\x7d' (by decide)).bind fun body => .ite (p := body.isEmpty) .fail
      (.given (hexNumber? body) fun n => .given (charOf? n) .pure)).congr fun cs => ?_
    rw [readHex]
    generalize cs.takeWhile (· ≠ '\x7d') = body, cs.dropWhile (· ≠ '\x7d') = behind
    cases body <;> cases behind <;> rfl
  · rw [readHex.eq_2 digits cs hcs]
    split <;> rfl

/-- What a name in braces stands for does not depend on what is behind. -/
theorem local_readProperty_braces (negated : Bool) :
    Local skips loss fun cs => readProperty negated ('\x7b' :: cs) where
  shrinks := by
    intro cs x rest h
    rw [readProperty] at h
    split at h
    · cases h
    · next after hafter =>
      have hsuffix : after <:+ cs := (List.suffix_cons _ _).trans (hafter ▸ List.dropWhile_suffix _)
      dsimp only at h
      split at h <;> obtain ⟨passes, -, hset⟩ := Option.bind_eq_some_iff.mp h <;> cases hset <;>
        exact hsuffix
  keeps := by
    intro cs
    rw [readProperty, readProperty]
    obtain ⟨halone, henclosed⟩ | ⟨after, halone, henclosed, htake⟩ :=
      until_append '\x7d' (by decide) cs
    · rw [halone, henclosed]
      exact .fails
    · rw [halone, henclosed, htake]
      dsimp only
      split
      · next property value _ =>
        rcases Property.member? (some property) value with _ | passes
        · exact .fails
        · exact .same _ after
      · rcases Property.member? none _ with _ | passes
        · exact .fails
        · exact .same _ after

theorem local_readProperty (negated : Bool) : Local skips ['$'] (readProperty negated) := by
  refine .first rfl fun c => ?_
  by_cases hbrace : c = '\x7b'
  · subst hbrace
    exact local_readProperty_braces negated
  by_cases hcaret : c = '^'
  · subst hcaret
    refine .first ?_ fun c => (Local.given (Property.member? none [c]) fun passes =>
      .pure (if negated then .test passes else .complement (.test passes))).congr fun cs => rfl
    have hnone : Property.member? none ['^'] = none := by rfl
    simp [readProperty, hnone]
  · refine (Local.given (Property.member? none [c]) fun passes =>
      .pure (if negated then .complement (.test passes) else .test passes)).congr fun cs => ?_
    rw [readProperty.eq_3 _ _ _ (by simpa using hbrace) (by simp [hcaret])]
    rfl

theorem local_readBoundary (flags : Flags) : Local skips loss (readBoundary flags) where
  shrinks := by
    intro cs x more h
    obtain ⟨rest, rfl⟩ | hbrace := eq_cons_or_ne '\x7b' cs
    · rw [readBoundary, drop_length_takeWhile] at h
      split at h
      · cases h
        exact List.suffix_refl _
      · split at h
        · next after hafter =>
          obtain ⟨assertion, -, hx⟩ := Option.bind_eq_some_iff.mp h
          cases hx
          have hbehind : '\x7d' :: more <:+ rest := by
            rw [← hafter]
            exact ((List.dropWhile_suffix _).trans (List.dropWhile_suffix _)).trans
              (List.dropWhile_suffix _)
          exact (List.suffix_cons _ _).trans (hbehind.trans (List.suffix_cons _ _))
        · cases h
    · rw [readBoundary.eq_2 _ _ hbrace] at h
      cases h
      exact List.suffix_refl _
  keeps := by
    intro cs
    obtain ⟨rest, rfl⟩ | hbrace := eq_cons_or_ne '\x7b' cs
    · have hblank := fun cs => (span_append (p := Letter.isBlank) (by decide +kernel) cs).2
      have hname := span_append (p := fun c => Letter.isAsciiLetter c || c = '-') (by decide)
        (rest.dropWhile Letter.isBlank)
      rw [List.cons_append, readBoundary, readBoundary, drop_length_takeWhile,
        drop_length_takeWhile, hblank, hname.1, hname.2, hblank]
      split
      · exact .same _ ('\x7b' :: rest)
      · generalize ((rest.dropWhile Letter.isBlank).dropWhile _).dropWhile Letter.isBlank = behind
        obtain ⟨after, rfl⟩ | hend := eq_cons_or_ne '\x7d' behind
        · rcases boundaryNamed? _ _ with _ | assertion
          · exact .fails
          · exact .same _ after
        · split
          · exact absurd rfl (hend _)
          · split
            · next _ after hafter => exact absurd hafter (append_closing_ne (by decide) hend after)
            · exact .fails
    · have hbrace' := append_closing_ne (by decide) hbrace
      rw [readBoundary.eq_2 _ _ hbrace, readBoundary.eq_2 _ _ hbrace']
      exact .same _ cs

theorem local_readEscape (flags : Flags) : Local skips ['$'] (readEscape flags) := by
  have hliteral (c : Char) : Local skips ['$'] fun rest => some (Escape.literal c, rest) := .pure _
  have hset (set : Option Escape) : Local skips ['$'] fun rest => set.map (·, rest) :=
    (Local.given set .pure).congr fun cs => Option.map_eq_bind
  have hhex (digits : Nat) : Local skips ['$'] fun rest =>
      (readHex digits rest).map fun result => (Escape.literal result.1, result.2) :=
    (local_readHex digits).map _
  have hproperty (negated : Bool) : Local skips ['$'] fun rest => if flags.unicode then
      (readProperty negated rest).map fun result => (Escape.property result.1, result.2)
      else none :=
    .ite ((local_readProperty negated).map _) .fail
  have hboundary : Local skips ['$'] fun rest =>
      (readBoundary flags rest).map fun result => (Escape.check result.1, result.2) :=
    (local_readBoundary flags).map _
  refine .first rfl fun c => ?_
  by_cases hpunctuation : isPunctuation c
  · exact (hliteral c).congr fun cs => if_pos hpunctuation
  unfold readEscape
  simp only [if_neg hpunctuation]
  split
  · exact hhex 2
  · exact hhex 4
  · exact hhex 8
  · exact hproperty false
  · exact hproperty true
  · exact hset (some _)
  · exact hset (some _)
  · exact hset (some _)
  · exact hset (complementOf? flags (digitSet flags))
  · exact hset (complementOf? flags (blankSet flags))
  · exact hset (complementOf? flags (wordSet flags))
  · exact hliteral _
  · exact hliteral _
  · exact hliteral _
  · exact hliteral _
  · exact hliteral _
  · exact hliteral _
  · exact .pure _
  · exact .pure _
  · exact hboundary
  · exact .pure _
  · exact .pure _
  · exact .pure _
  · exact .fail

/-! ## Repetitions -/

/-- the number that digits write, if it has 32 bits -/
def countOf? (digits : List Char) : Option Nat :=
  if digits.isEmpty then none
  else
    let count := digits.foldl (fun n c => n * 10 + (c.toNat - 48)) 0
    if count < Nat.pow 2 32 then some count else none

theorem local_readCount? : Local skips loss readCount? := by
  have hblanks : Local skips loss fun cs =>
      some (cs.takeWhile Letter.isBlank, cs.dropWhile Letter.isBlank) :=
    local_takeWhile (by decide +kernel)
  refine (hblanks.bind fun _ => (local_takeWhile (p := Letter.isAsciiDigit) (by decide)).bind
    fun digits => .given (countOf? digits) fun count => hblanks.map fun _ => count).congr
      fun cs => ?_
  rw [readCount?, drop_length_takeWhile]
  dsimp only [Option.bind_some, Option.map_some, countOf?]
  split
  · rfl
  · split <;> rfl

/-- a closing brace -/
def readBrace : List Char → Option (Unit × List Char)
  | '\x7d' :: rest => some ((), rest)
  | _ => none

/-- the greatest bound of a repetition, if there is one -/
def readMost (least : Nat) : List Char → Option ((Nat × Option Nat) × List Char)
  | '\x7d' :: rest => some ((least, none), rest)
  | rest => (readCount? rest).bind fun most => (readBrace most.2).bind fun brace =>
    if least ≤ most.1 then some ((least, some most.1), brace.2) else none

/-- the greatest bound of a repetition, behind a comma -/
def readComma (flags : Flags) (least : Nat) : List Char → Option ((Nat × Option Nat) × List Char)
  | ',' :: rest => readMost least (skipVerbose flags rest)
  | _ => none

/-- the greatest bound of a repetition, behind the least one -/
def readBoundsEnd (flags : Flags) (least : Nat) :
    List Char → Option ((Nat × Option Nat) × List Char)
  | '\x7d' :: rest => some ((least, some least), rest)
  | rest => readComma flags least rest

theorem readBounds?_eq (flags : Flags) (cs : List Char) : readBounds? flags cs =
    (readCount? (skipVerbose flags cs)).bind fun least => readBoundsEnd flags least.1 least.2 := by
  rw [readBounds?]
  refine bind_congr fun result => ?_
  obtain ⟨least, rest⟩ := result
  dsimp only
  split
  · rfl
  · next rest _ =>
    rw [readBoundsEnd.eq_2 _ _ _ (by simp), readComma]
    split
    · next heq => rw [heq, readMost]
    · next hend =>
      rw [readMost.eq_2 _ _ hend]
      refine bind_congr fun result => ?_
      obtain ⟨most, rest⟩ := result
      dsimp only
      split
      · rfl
      · next hend => rw [readBrace.eq_2 _ hend]; rfl
  · next hend hcomma => rw [readBoundsEnd.eq_2 _ _ _ hend, readComma.eq_2 _ _ _ hcomma]

theorem local_readBrace : Local skips loss readBrace :=
  .headed '\x7d' (by decide) (.pure ()) .fail fun cs hcs => readBrace.eq_2 cs hcs

theorem local_readMost (least : Nat) : Local skips loss (readMost least) :=
  .headed '\x7d' (by decide) (.pure (least, none))
    (local_readCount?.bind fun most => local_readBrace.bind fun _ =>
      .ite (p := least ≤ most) (.pure (least, some most)) .fail)
    fun cs hcs => readMost.eq_2 least cs hcs

theorem local_readComma (flags : Flags) (least : Nat) :
    Local True loss (readComma flags least) :=
  .headed ',' (by decide) ((local_skipVerbose flags).bind fun _ => local_readMost least) .fail
    fun cs hcs => readComma.eq_2 flags least cs hcs

theorem local_readBoundsEnd (flags : Flags) (least : Nat) :
    Local True loss (readBoundsEnd flags least) :=
  .headed '\x7d' (by decide) (.pure (least, some least)) (local_readComma flags least)
    fun cs hcs => readBoundsEnd.eq_2 flags least cs hcs

theorem local_readBounds? (flags : Flags) : Local True loss (readBounds? flags) :=
  ((local_skipVerbose flags).bind fun _ => local_readCount?.bind
    (local_readBoundsEnd flags)).congr (readBounds?_eq flags)

theorem local_repeatItem (flags : Flags) (least : Nat) (most : Option Nat) (item : Expression) :
    Local skips loss fun cs => some (repeatItem flags least most item cs) :=
  .headed '?' (by decide) (.pure (Expression.times least most flags.swapGreed item))
    (.pure (Expression.times least most (!flags.swapGreed) item))
    fun cs hcs => by rw [repeatItem.eq_2 _ _ _ _ _ hcs]

theorem local_repeatLast (state : State) (least : Nat) (most : Option Nat) :
    Local skips loss (repeatLast state least most) := by
  rcases hitems : state.items with _ | ⟨_ | item, items⟩
  · exact Local.fail.congr fun cs => by rw [repeatLast, hitems]
  · exact Local.fail.congr fun cs => by rw [repeatLast, hitems]
  · exact ((local_repeatItem state.flags least most item).map fun item =>
      { state with items := some item :: items }).congr fun cs => by rw [repeatLast, hitems]; rfl

/-! ## The start of a group -/

theorem readFlags_letter (hcolon : c ≠ ':') (hend : c ≠ ')') (hhyphen : c ≠ '-')
    (seen : List Char) (on : Bool) (flags : Flags) (rest : List Char) :
    readFlags seen on flags (c :: rest) =
      if seen.contains c then none
      else (setFlag? flags on c).bind fun flags => readFlags (c :: seen) on flags rest := by
  rw [readFlags.eq_4 _ _ _ _ _ (by simpa using hcolon) (by simpa using hend)
    (by simpa using hhyphen)]
  split <;> rfl

theorem readFlags_suffix {seen : List Char} {on : Bool} {result : Flags × Bool × List Char}
    (h : readFlags seen on flags cs = some result) : result.2.2 <:+ cs := by
  induction cs generalizing seen on flags with
  | nil =>
    rw [readFlags] at h
    cases h
  | cons c rest ih =>
    have hcons : rest <:+ c :: rest := List.suffix_cons c rest
    by_cases hcolon : c = ':'
    · subst hcolon
      rw [readFlags] at h
      obtain ⟨-, heq⟩ := Option.ite_none_left_eq_some.mp h
      cases heq
      exact hcons
    by_cases hend : c = ')'
    · subst hend
      rw [readFlags] at h
      obtain ⟨-, heq⟩ := Option.ite_none_left_eq_some.mp h
      cases heq
      exact hcons
    by_cases hhyphen : c = '-'
    · subst hhyphen
      rw [readFlags] at h
      obtain ⟨-, hmore⟩ := Option.ite_none_right_eq_some.mp h
      exact (ih hmore).trans hcons
    · rw [readFlags_letter hcolon hend hhyphen] at h
      obtain ⟨-, hset⟩ := Option.ite_none_left_eq_some.mp h
      obtain ⟨flags, -, hmore⟩ := Option.bind_eq_some_iff.mp hset
      exact (ih hmore).trans hcons

/-- a result whose rest stands apart -/
def apart (result : Option (α × β × List Char)) : Option ((α × β) × List Char) :=
  result.map fun result => ((result.1, result.2.1), result.2.2)

theorem local_readFlags (seen : List Char) (on : Bool) (flags : Flags) :
    Local skips ['$'] fun cs => apart (readFlags seen on flags cs) where
  shrinks := by
    intro cs x rest h
    obtain ⟨result, hread, heq⟩ := Option.map_eq_some_iff.mp h
    cases heq
    exact readFlags_suffix hread
  keeps := by
    intro cs
    induction cs generalizing seen on flags with
    | nil =>
      -- flags without an end take the parenthesis for it
      rw [List.nil_append, readFlags, readFlags]
      split
      · exact .fails
      · exact .taken _ (List.suffix_refl _)
    | cons c rest ih =>
      by_cases hcolon : c = ':'
      · subst hcolon
        rw [List.cons_append, readFlags, readFlags]
        split
        · exact .fails
        · exact .same (flags, true) rest
      by_cases hend : c = ')'
      · subst hend
        rw [List.cons_append, readFlags, readFlags]
        split
        · exact .fails
        · exact .same (flags, false) rest
      by_cases hhyphen : c = '-'
      · subst hhyphen
        rw [List.cons_append, readFlags, readFlags]
        split
        · exact ih _ _ _
        · exact .fails
      · rw [List.cons_append, readFlags_letter hcolon hend hhyphen,
          readFlags_letter hcolon hend hhyphen]
        split
        · exact .fails
        · rcases setFlag? flags on c with _ | flags
          · exact .fails
          · exact ih _ _ _

/-- the name of a group, if characters may be one -/
def nameOf? : List Char → Option String
  | first :: rest =>
    if (first = '_' || Letter.isAlphabetic first) && rest.all fun c =>
        c = '_' || c = '.' || c = '[' || c = ']' || Letter.isAlphanumeric c then
      some (String.ofList (first :: rest))
    else none
  | [] => none

theorem local_readName? : Local skips loss readName? := by
  refine ((local_until '>' (by decide)).bind fun name => .given (nameOf? name) .pure).congr
    fun cs => ?_
  rw [readName?, drop_length_takeWhile]
  generalize cs.takeWhile (· ≠ '>') = name, cs.dropWhile (· ≠ '>') = behind
  rcases name with _ | ⟨first, name⟩ <;> rcases behind with _ | ⟨_, after⟩
  · rfl
  · rfl
  · rfl
  · dsimp only [Option.bind_some, nameOf?]
    split <;> rfl

/-- what the start of a group says -/
inductive Opening where
  /-- flags for what follows -/
  | flags (flags : Flags)
  /-- a group, with its flags, its number if it is counted, and the groups with it -/
  | group (flags : Flags) (number : Option Nat) (groups : Groups)

/-- a group with a name that no other group has -/
def Groups.named? (groups : Groups) (name : String) : Option Groups :=
  if groups.names.any (·.1 = name) then none
  else some { count := groups.count + 1, names := (name, groups.count + 1) :: groups.names }

/-- the name of a group, behind its opening bracket -/
def readNamed (flags : Flags) (groups : Groups) (cs : List Char) : Option (Opening × List Char) :=
  (readName? cs).bind fun name => (groups.named? name.1).bind fun named =>
    some (.group flags (some named.count) named, name.2)

/-- the name of a group, with its opening bracket -/
def readBracket (flags : Flags) (groups : Groups) : List Char → Option (Opening × List Char)
  | '<' :: rest => readNamed flags groups rest
  | _ => none

/-- the start of a group without a name, behind a question mark, unless a letter tells that it has
one -/
def readUnnamed (flags : Flags) (groups : Groups) : List Char → Option (Opening × List Char)
  | 'P' :: rest => readBracket flags groups rest
  | cs => (readFlags [] true flags cs).map fun result =>
    (if result.2.1 then .group result.1 none groups else .flags result.1, result.2.2)

/-- the start of a group, behind a question mark -/
def readMarked (flags : Flags) (groups : Groups) : List Char → Option (Opening × List Char)
  | '<' :: rest => readNamed flags groups rest
  | cs => readUnnamed flags groups cs

/-- the start of a group, behind its opening parenthesis -/
def readOpening (flags : Flags) (groups : Groups) : List Char → Option (Opening × List Char)
  | '?' :: rest => readMarked flags groups rest
  | rest => some (.group flags (some (groups.count + 1)) { groups with count := groups.count + 1 },
      rest)

theorem local_readNamed (flags : Flags) (groups : Groups) :
    Local skips loss (readNamed flags groups) :=
  have hnamed (name : String) : Local skips loss fun cs => (groups.named? name).bind fun named =>
      some (Opening.group flags (some named.count) named, cs) :=
    .given (groups.named? name) fun named => .pure (Opening.group flags (some named.count) named)
  local_readName?.bind hnamed

theorem local_readBracket (flags : Flags) (groups : Groups) :
    Local skips loss (readBracket flags groups) :=
  .headed '<' (by decide) (local_readNamed flags groups) .fail
    fun cs hcs => readBracket.eq_2 flags groups cs hcs

theorem local_readUnnamed (flags : Flags) (groups : Groups) :
    Local skips ['$'] (readUnnamed flags groups) := by
  have hflags : Local skips ['$'] fun cs => (readFlags [] true flags cs).map fun result =>
      (if result.2.1 then Opening.group result.1 none groups else .flags result.1, result.2.2) :=
    ((local_readFlags [] true flags).map fun result : Flags × Bool =>
      if result.2 then Opening.group result.1 none groups else .flags result.1).congr fun cs => by
        cases readFlags [] true flags cs <;> rfl
  exact .headed 'P' (by decide) (local_readBracket flags groups) hflags
    fun cs hcs => readUnnamed.eq_2 flags groups cs hcs

theorem local_readMarked (flags : Flags) (groups : Groups) :
    Local skips ['$'] (readMarked flags groups) :=
  .headed '<' (by decide) (local_readNamed flags groups) (local_readUnnamed flags groups)
    fun cs hcs => readMarked.eq_2 flags groups cs hcs

theorem local_readOpening (flags : Flags) (groups : Groups) :
    Local skips ['$'] (readOpening flags groups) :=
  .headed '?' (by decide) (local_readMarked flags groups)
    (.pure (Opening.group flags (some (groups.count + 1))
      { groups with count := groups.count + 1 }))
    fun cs hcs => readOpening.eq_2 flags groups cs hcs

end TableRecipe.Pattern
