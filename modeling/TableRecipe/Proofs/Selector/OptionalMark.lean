import Mathlib.Data.List.TakeWhile
import TableRecipe.Proofs.Number.Whole
import TableRecipe.Proofs.Selector.Meanings

/-!
# The mark of optional selectors

A question mark behind a selector only makes it tolerate that it finds nothing, unless the selector
is a place or a slice with a minus in front: with the mark behind it the minus is no sign any more,
and what the rest finds is taken away.

* `Slice.isPlaceChar_of_read?` — the characters of a slice;
* `Selector.HasSign` — the minus in front of a selector is a sign;
* `Selector.read_marked`, `Selector.read_marked_of_hasSign` — a selector with the mark behind it;
* `Selector.expand_marked` — the columns of such a selector.
-/

namespace TableRecipe

variable {cs rest : List Char} {c : Char} {n : Int}

/-! ## Characters of places -/

/-- whether a character may stand in a place or a slice -/
def Slice.IsPlaceChar (c : Char) : Prop :=
  c = ':' ∨ Letter.isBlank c ∨ Decimal.isDigit c ∨ c = '-' ∨ c = '+'

instance : Decidable (Slice.IsPlaceChar c) := inferInstanceAs (Decidable (_ ∨ _))

namespace Split

theorem mem_dropWhile_or (p : Char → Bool) (h : c ∈ cs) : p c ∨ c ∈ cs.dropWhile p := by
  rw [← List.takeWhile_append_dropWhile (p := p) (l := cs), List.mem_append] at h
  exact h.imp_left List.mem_takeWhile_imp

/-- What trimming takes away is blank. -/
theorem isBlank_or_mem_trim (h : c ∈ cs) : Letter.isBlank c ∨ c ∈ trim cs := by
  obtain hblank | hstart := mem_dropWhile_or Letter.isBlank h
  · exact .inl hblank
  · have hmem := mem_dropWhile_or Letter.isBlank (List.mem_reverse.mpr hstart)
    exact hmem.imp_right fun h => List.mem_reverse.mpr h

/-- What splitting takes away is the separator. -/
theorem eq_or_mem_on (separator : Char) (h : c ∈ cs) :
    c = separator ∨ ∃ piece ∈ on separator cs, c ∈ piece := by
  induction cs with
  | nil => cases h
  | cons first rest ih =>
    obtain ⟨piece, pieces, hrest⟩ := Wildcard.exists_on_eq_cons separator rest
    rw [hrest] at ih
    rw [on, hrest]
    by_cases hfirst : first = separator
    · rw [if_pos hfirst]
      obtain rfl | hmem := List.mem_cons.mp h
      · exact .inl hfirst
      · obtain heq | ⟨found, hfound, hc⟩ := ih hmem
        · exact .inl heq
        · exact .inr ⟨found, .tail _ hfound, hc⟩
    · rw [if_neg hfirst]
      obtain rfl | hmem := List.mem_cons.mp h
      · exact .inr ⟨_, List.mem_cons_self, List.mem_cons_self⟩
      · obtain heq | ⟨found, hfound, hc⟩ := ih hmem
        · exact .inl heq
        · obtain rfl | hfound := List.mem_cons.mp hfound
          · exact .inr ⟨_, List.mem_cons_self, .tail _ hc⟩
          · exact .inr ⟨found, .tail _ hfound, hc⟩

end Split

namespace Slice

variable {slice : Slice}

theorem isPlaceChar_of_integer? (h : integer? cs = some n) (hc : c ∈ cs) : IsPlaceChar c := by
  unfold integer? Decimal.integer? at h
  split at h
  next negative body hbody =>
  split at h
  · cases h
  · next hdigits =>
    have hall : ∀ c ∈ body, Decimal.isDigit c := by
      simp only [Bool.or_eq_true, Bool.not_eq_true', not_or] at hdigits
      simpa using hdigits.2
    -- the digits are behind a sign, or all there is
    split at hbody <;> obtain ⟨-, rfl⟩ := Prod.mk.inj hbody
    · obtain rfl | hc := List.mem_cons.mp hc
      exacts [.inr (.inr (.inr (.inl rfl))), .inr (.inr (.inl (hall c hc)))]
    · obtain rfl | hc := List.mem_cons.mp hc
      exacts [.inr (.inr (.inr (.inr rfl))), .inr (.inr (.inl (hall c hc)))]
    · exact .inr (.inr (.inl (hall c hc)))

theorem isPlaceChar_of_part? {part : Option Int} (h : part? cs = some part) (hc : c ∈ cs) :
    IsPlaceChar c := by
  obtain hblank | hbody := Split.isBlank_or_mem_trim hc
  · exact .inr (.inl hblank)
  · rw [part?, if_neg (by simp [List.ne_nil_of_mem hbody])] at h
    obtain ⟨n, hn, -⟩ := Option.map_eq_some_iff.mp h
    exact isPlaceChar_of_integer? hn hbody

/-- A slice is written with colons, blanks, digits and signs only. -/
theorem isPlaceChar_of_read? (h : read? cs = some slice) (hc : c ∈ cs) : IsPlaceChar c := by
  obtain rfl | ⟨piece, hpiece, hmem⟩ := Split.eq_or_mem_on ':' hc
  · exact .inl rfl
  · obtain ⟨part, hpart⟩ := Option.isSome_iff_exists.mp ((parts_of_read? h).1 piece hpiece)
    exact isPlaceChar_of_part? hpart hmem

/-- No place and no slice ends in a question mark. -/
theorem integer?_marked (cs : List Char) : integer? (cs ++ ['?']) = none := by
  refine Option.eq_none_iff_forall_ne_some.mpr fun n h => ?_
  exact absurd (isPlaceChar_of_integer? h (c := '?') (by simp)) (by decide)

theorem read?_marked (cs : List Char) : read? (cs ++ ['?']) = none := by
  refine Option.eq_none_iff_forall_ne_some.mpr fun slice h => ?_
  exact absurd (isPlaceChar_of_read? h (c := '?') (by simp)) (by decide)

end Slice

namespace Selector

variable {columns selectors selected before result found : List String} {text : String}
  {selector : Selector} {body : List Char} {kind : SelectorKind}

/-! ## Reading the mark -/

/-- whether the minus in front of a selector is the sign of a place or of the first bound of a
slice -/
def HasSign (text : String) : Prop := text.toList.head? = some '-' ∧ isNegated text = false

instance : Decidable (HasSign text) := inferInstanceAs (Decidable (_ ∧ _))

theorem toList_marked (text : String) : (text ++ "?").toList = text.toList ++ ['?'] := by
  simp

/-- With the mark behind it, every selector with a minus in front takes columns away. -/
theorem isNegated_marked (text : String) :
    isNegated (text ++ "?") = decide (text.toList.head? = some '-') := by
  rw [isNegated, toList_marked, Slice.integer?_marked, Slice.read?_marked]
  cases text.toList <;> simp

/-- The kind of a selector does not depend on the text that failures show. -/
theorem kindOf_congr (h : kindOf text body = .ok kind) (other : String) :
    kindOf other body = .ok kind := by
  rw [kindOf] at h ⊢
  rcases hpattern : Split.after? "regex:".toList body with _ | pattern <;> rw [hpattern] at h
  · by_cases hstar : body.contains '*'
    · rw [if_pos hstar] at h ⊢
      rcases hregex : wholeName? (Wildcard.expression body) with _ | regex <;> rw [hregex] at h
      · cases h
      · exact h
    · rw [if_neg hstar] at h ⊢
      exact h
  · rcases hregex : wholeName? pattern with _ | regex <;> simp only [hregex] at h ⊢
    · cases h
    · exact h

/-- a selector without its minus, unless that is a sign -/
def unsigned (text : String) : List Char :=
  if isNegated text then text.toList.drop 1 else text.toList

/-- What does not end in the mark is not optional. -/
theorem read_unmarked (hquestion : text.toList.getLast? ≠ some '?') :
    read text = (do
      return ⟨String.ofList (unsigned text), isNegated text, false,
        ← kindOf text (unsigned text)⟩) := by
  have hend : (unsigned text).getLast? ≠ some '?' := by
    rw [unsigned]
    split
    · intro h
      refine hquestion ?_
      cases hcs : text.toList with
      | nil => simp [hcs] at h
      | cons first rest =>
        rw [hcs, List.drop_succ_cons, List.drop_zero] at h
        rw [List.getLast?_cons, h]
        rfl
    · exact hquestion
  rw [unsigned] at hend
  simp only [read, hend, decide_false, if_false, unsigned]

/-- What ends in the mark is optional. -/
theorem read_of_mark {body : List Char} (hbody : unsigned text = body ++ ['?']) :
    read text = (do
      return ⟨String.ofList body, isNegated text, true, ← kindOf text body⟩) := by
  rw [unsigned] at hbody
  simp only [read, hbody, List.getLast?_concat, decide_true, if_true, List.dropLast_concat]

theorem unsigned_marked (hsign : ¬HasSign text) :
    isNegated (text ++ "?") = isNegated text ∧
      unsigned (text ++ "?") = unsigned text ++ ['?'] := by
  have hnegated : isNegated (text ++ "?") = isNegated text := by
    rw [isNegated_marked]
    by_cases hminus : text.toList.head? = some '-'
    · rw [decide_eq_true hminus]
      exact (Bool.eq_true_of_not_eq_false fun h => hsign ⟨hminus, h⟩).symm
    · simp [isNegated, hminus]
  refine ⟨hnegated, ?_⟩
  rw [unsigned, unsigned, hnegated, toList_marked]
  split
  · next h =>
    have hne : text.toList ≠ [] := by
      intro hempty
      simp [isNegated, hempty] at h
    rw [List.drop_append_of_le_length (List.length_pos_iff.mpr hne)]
  · rfl

/-- Without the sign of a place, the mark makes a selector optional and changes nothing else. -/
theorem read_marked (hquestion : text.toList.getLast? ≠ some '?') (hsign : ¬HasSign text)
    (hread : read text = .ok selector) :
    read (text ++ "?") = .ok { selector with optional := true } := by
  obtain ⟨hnegated, hunsigned⟩ := unsigned_marked hsign
  rw [read_unmarked hquestion] at hread
  obtain ⟨kind, hkind, hselector⟩ := bind_eq_ok.mp hread
  obtain rfl := pure_eq_ok.mp hselector
  rw [read_of_mark hunsigned, hnegated, kindOf_congr hkind]
  rfl

/-- What is written like a place or a slice has a kind, whether it is one or not. -/
theorem exists_kindOf {body : List Char} (hchars : ∀ c ∈ body, Slice.IsPlaceChar c)
    (text : String) : ∃ kind, kindOf text body = .ok kind := by
  have hpattern : Split.after? "regex:".toList body = none := by
    refine if_neg fun hprefix => ?_
    exact absurd (hchars 'r' ((List.isPrefixOf_iff_prefix.mp hprefix).subset (by decide)))
      (by decide)
  have hstar : ¬body.contains '*' := fun hstar =>
    absurd (hchars '*' (by simpa using hstar)) (by decide)
  rw [kindOf, hpattern]
  simp only [hstar, Bool.false_eq_true, if_false]
  split
  · exact ⟨_, rfl⟩
  · split <;> exact ⟨_, rfl⟩

/-- Behind the sign of a place, the mark makes the sign a minus that takes columns away. -/
theorem read_marked_of_hasSign (hsign : HasSign text) :
    ∃ body kind, text.toList = '-' :: body ∧
      read (text ++ "?") = .ok ⟨String.ofList body, true, true, kind⟩ := by
  obtain ⟨hminus, hplace⟩ := hsign
  obtain ⟨body, hbody⟩ := List.head?_eq_some_iff.mp hminus
  have hchars : ∀ c ∈ body, Slice.IsPlaceChar c := by
    intro c hc
    have hmem : c ∈ text.toList := hbody ▸ List.mem_cons_of_mem _ hc
    simp only [isNegated, hminus, decide_true, Bool.true_and, Bool.and_eq_false_iff,
      Option.isNone_eq_false_iff, Option.isSome_iff_exists] at hplace
    obtain ⟨n, hn⟩ | ⟨slice, hslice⟩ := hplace
    exacts [Slice.isPlaceChar_of_integer? hn hmem, Slice.isPlaceChar_of_read? hslice hmem]
  have hunsigned : unsigned (text ++ "?") = body ++ ['?'] := by
    rw [unsigned, isNegated_marked, decide_eq_true hminus, if_pos rfl, toList_marked, hbody]
    rfl
  obtain ⟨kind, hkind⟩ := exists_kindOf hchars (text ++ "?")
  refine ⟨body, kind, hbody, ?_⟩
  rw [read_of_mark hunsigned, isNegated_marked, decide_eq_true hminus, hkind]
  rfl

/-! ## The columns -/

/-- A selector that finds what it must finds the same if it need not. -/
theorem selectSome_optional (h : selector.selectSome columns = .ok found) :
    selectSome { selector with optional := true } columns = .ok found := by
  obtain ⟨there, hselect, hsome⟩ := bind_eq_ok.mp h
  obtain rfl : there = found := by
    split at hsome
    · cases hsome
    · exact pure_eq_ok.mp hsome
  have hsame : select { selector with optional := true } columns = .ok there := by
    obtain ⟨body, negated, optional, kind⟩ := selector
    cases kind with
    | position place =>
      simp only [select] at hselect ⊢
      split at hselect
      · exact hselect
      · split at hselect
        · exact hselect
        · cases hselect
    | name | wildcard | pattern | slice => exact hselect
  rw [selectSome_of_ok hsame, if_neg (by simp)]

theorem apply_marked (hname : text ∉ columns) (hmarked : text ++ "?" ∉ columns)
    (hquestion : text.toList.getLast? ≠ some '?') (hsign : ¬HasSign text)
    (h : apply columns selected text = .ok result) :
    apply columns selected (text ++ "?") = .ok result := by
  rcases hread : read text with error | selector
  · simp [apply, hname, hread] at h
    cases h
  · rw [apply_of_read hname hread] at h
    rw [apply_of_read hmarked (read_marked hquestion hsign hread)]
    obtain ⟨found, hfound, hresult⟩ := bind_eq_ok.mp h
    rw [selectSome_optional hfound]
    exact hresult

theorem startsFull_marked (hname : text ∉ columns) (hmarked : text ++ "?" ∉ columns)
    (hsign : ¬HasSign text) :
    startsFull columns (before ++ [text ++ "?"]) = startsFull columns (before ++ [text]) := by
  rw [Bool.eq_iff_iff, startsFull_iff, startsFull_iff]
  simp [hname, hmarked, (unsigned_marked hsign).1, or_imp, forall_and]

theorem expand_concat : expand columns (before ++ [text]) =
    before.foldlM (apply columns) (if startsFull columns (before ++ [text]) then columns else [])
      >>= fun selected => apply columns selected text := by
  rw [expand, List.foldlM_append]
  simp

/-! ## Missing columns -/

/-- whether a failure is not for want of a column -/
def Tolerable (error : Error) : Prop := ∀ column, error.cause ≠ .unknownColumn column

theorem tolerable_validation (message : String) : Tolerable (.validation message) := nofun

theorem tolerable_overflow : Tolerable (.of .overflow) := nofun

theorem failsOnly_ascend (step stop position : Int) :
    FailsOnly Tolerable (Slice.ascend step stop position) := by
  fun_induction Slice.ascend step stop position with
  | case1 => exact .throw tolerable_overflow
  | case2 position h hfits ih => exact .bind ih fun _ _ => .pure
  | case3 => exact .pure

theorem failsOnly_descend (step stop position : Int) :
    FailsOnly Tolerable (Slice.descend step stop position) := by
  fun_induction Slice.descend step stop position with
  | case1 => exact .throw tolerable_overflow
  | case2 position h hfits ih => exact .bind ih fun _ _ => .pure
  | case3 => exact .pure

theorem failsOnly_positions (slice : Slice) (length : Nat) :
    FailsOnly Tolerable (slice.positions length) := by
  rw [Slice.positions_eq]
  split
  · exact .throw (tolerable_validation _)
  · split
    exacts [failsOnly_ascend _ _ _, failsOnly_descend _ _ _]

theorem failsOnly_kindOf (text : String) (body : List Char) :
    FailsOnly Tolerable (kindOf text body) := by
  intro error h
  rw [kindOf] at h
  split at h
  · split at h <;> cases h
    exact tolerable_validation _
  · split at h
    · split at h <;> cases h
      exact tolerable_validation _
    · split at h
      · cases h
      · split at h <;> cases h

/-- An optional selector never lacks a column. -/
theorem failsOnly_selectSome (hoptional : selector.optional = true) :
    FailsOnly Tolerable (selector.selectSome columns) := by
  have hselect : FailsOnly Tolerable (selector.select columns) := by
    simp only [select, hoptional, if_true]
    split
    · exact .pure
    · exact .pure
    · exact .pure
    · split <;> exact .pure
    · exact .bind (failsOnly_positions _ _) fun _ _ => .pure
  rw [selectSome]
  refine .bind hselect fun found _ => ?_
  rw [hoptional, Bool.not_true, Bool.and_false]
  exact .pure

/-- The mark at the end of a selector is never its sign. -/
theorem exists_unsigned_eq (hmark : text.toList.getLast? = some '?') :
    ∃ body, unsigned text = body ++ ['?'] := by
  obtain ⟨start, hstart⟩ := List.getLast?_eq_some_iff.mp hmark
  rw [unsigned, hstart]
  split
  · next hnegated =>
    -- a minus is not the mark, so that something stands in front of the mark
    cases start with
    | nil => simp [isNegated, hstart] at hnegated
    | cons first rest => exact ⟨rest, rfl⟩
  · exact ⟨start, rfl⟩

/-- A selector with the mark at its end does not fail for want of a column. -/
theorem failsOnly_apply (hmark : text.toList.getLast? = some '?') (selected : List String) :
    FailsOnly Tolerable (apply columns selected text) := by
  by_cases hname : text ∈ columns
  · rw [apply, if_pos (by simpa using hname)]
    exact .pure
  · obtain ⟨body, hbody⟩ := exists_unsigned_eq hmark
    have hread := read_of_mark hbody
    rw [apply, if_neg (by simpa using hname)]
    refine .bind ?_ fun selector hselector => ?_
    · rw [hread]
      exact .bind (failsOnly_kindOf _ _) fun _ _ => .pure
    · have hoptional : selector.optional = true := by
        rw [hread] at hselector
        obtain ⟨kind, -, hkind⟩ := bind_eq_ok.mp hselector
        rw [← pure_eq_ok.mp hkind]
      refine .bind (failsOnly_selectSome hoptional) fun found _ => ?_
      split <;> exact .pure

theorem failsOnly_expand (hmarks : ∀ text ∈ selectors, text.toList.getLast? = some '?') :
    FailsOnly Tolerable (expand columns selectors) :=
  .foldlM fun text htext => failsOnly_apply (hmarks text htext)

/-! ## The mark -/

/-- **The mark of optional selectors.** Behind a selector without the sign of a place, the mark
keeps the columns of a list that the selector ends; behind one with that sign it takes the columns
away that the rest of the selector finds. Selectors that all have the mark never fail for want of a
column. -/
theorem expand_marked (columns : List String) :
    (∀ before text, text ∉ columns → text ++ "?" ∉ columns →
      text.toList.getLast? ≠ some '?' →
      (¬HasSign text → ∀ result, expand columns (before ++ [text]) = .ok result →
        expand columns (before ++ [text ++ "?"]) = .ok result) ∧
      (HasSign text → ∃ body kind, text.toList = '-' :: body ∧ ∀ selected,
        apply columns selected (text ++ "?") = (do
          let found ← selectSome ⟨String.ofList body, true, true, kind⟩ columns
          return selected.filter (!found.contains ·)))) ∧
    (∀ selectors : List String, (∀ text ∈ selectors, text.toList.getLast? = some '?') →
      ∀ error, expand columns selectors = .error error →
        ∀ column, error.cause ≠ .unknownColumn column) := by
  refine ⟨fun before text hname hmarked hquestion => ⟨fun hsign result h => ?_, fun hsign => ?_⟩,
    fun selectors hmarks => failsOnly_expand hmarks⟩
  · rw [expand_concat] at h ⊢
    rw [startsFull_marked hname hmarked hsign]
    obtain ⟨selected, hselected, hlast⟩ := bind_eq_ok.mp h
    rw [hselected]
    exact apply_marked hname hmarked hquestion hsign hlast
  · obtain ⟨body, kind, hbody, hread⟩ := read_marked_of_hasSign hsign
    refine ⟨body, kind, hbody, fun selected => ?_⟩
    rw [apply_of_read hmarked hread]
    rfl

/-- The mark behind a slice keeps the columns, and a failure for another reason stays one. -/
theorem expand_marked_of_slices :
    expand ["a", "b", "c"] ["c", "0:2"] = .ok ["c", "a", "b"] ∧
      "0:2" ∉ ["a", "b", "c"] ∧ "0:2?" ∉ ["a", "b", "c"] ∧ ¬HasSign "0:2" ∧
      expand ["a", "b", "c"] ["c", "0:2?"] = .ok ["c", "a", "b"] ∧
      expand ["a", "b", "c"] ["d?", "::0?"] =
        .error (.validation "slice step cannot be zero") ∧
      ∀ column, (Error.validation "slice step cannot be zero").cause ≠ .unknownColumn column := by
  have hunmarked : expand ["a", "b", "c"] ["c", "0:2"] = .ok ["c", "a", "b"] := by decide +kernel
  have hfails : expand ["a", "b", "c"] ["d?", "::0?"] =
      .error (.validation "slice step cannot be zero") := by decide +kernel
  obtain ⟨hlast, hall⟩ := expand_marked ["a", "b", "c"]
  have hmarked := (hlast ["c"] "0:2" (by decide) (by decide) (by decide)).1 (by decide) _ hunmarked
  exact ⟨hunmarked, by decide, by decide, by decide, hmarked, hfails,
    hall _ (by decide) _ hfails⟩

/-- The mark behind the last place takes away the column at the place after the first one. -/
theorem mark_makes_minus :
    expand ["a", "b", "c"] ["-1"] = .ok ["c"] ∧ expand ["a", "b", "c"] ["-1?"] = .ok ["a", "c"] ∧
      "-1".toList.getLast? ≠ some '?' ∧ "-1" ∉ ["a", "b", "c"] ∧ "-1?" ∉ ["a", "b", "c"] := by
  decide +kernel

end Selector

end TableRecipe
