import Mathlib.Data.List.Induction
import Mathlib.Data.List.Sort
import TableRecipe.Selector.Basic

/-!
# Lists of meanings

What a list of selectors stands for, once each of them has a meaning: the columns that it finds in
their order, and whether it adds them or takes them away. The last meaning that has found a column
decides whether it is there; the first one that added it since it was last taken away decides where
it stands.

* `Meaning` — what a selector means in a list of columns, with `Meaning.take`, its effect;
* `Meaning.rank` — where a column stands;
* `Expansion` — the columns that a list of meanings stands for;
* `expansion_foldl`, `Expansion.unique` — the effects of the meanings, one after the other, lead to
  these columns and no others.
-/

namespace TableRecipe.Selector

/-- what a selector means in a list of columns -/
structure Meaning where
  /-- whether it adds columns -/
  positive : Bool
  /-- the columns that it finds, in order -/
  found : List String
  deriving DecidableEq, Repr

variable {meanings : List Meaning} {meaning : Meaning} {selected result : List String}
  {column : String}

namespace Meaning

/-- the columns after a meaning: those that it finds are added at the end unless they are there, or
taken away -/
def take (selected : List String) (meaning : Meaning) : List String :=
  if meaning.positive then meaning.found.foldl addOnce selected
  else selected.filter (!meaning.found.contains ·)

/-- the last meaning that has found a column -/
def last? (meanings : List Meaning) (column : String) : Option Meaning :=
  meanings.reverse.find? (·.found.contains column)

/-- whether a meaning adds a column -/
def adds (column : String) (meaning : Meaning) : Bool :=
  meaning.positive && meaning.found.contains column

/-- whether a meaning takes a column away -/
def removes (column : String) (meaning : Meaning) : Bool :=
  !meaning.positive && meaning.found.contains column

/-- the number of meanings up to the last one that takes a column away, zero if there is none -/
def removed (meanings : List Meaning) (column : String) : Nat :=
  meanings.length - meanings.reverse.findIdx (removes column)

/-- the place of the first meaning that adds a column after the last one that takes it away -/
def entered (meanings : List Meaning) (column : String) : Nat :=
  removed meanings column + (meanings.drop (removed meanings column)).findIdx (adds column)

/-- where a column stands: the place of the meaning that it entered with, and its place among the
columns that this meaning finds -/
def rank (meanings : List Meaning) (column : String) : Nat × Nat :=
  (entered meanings column,
    ((meanings[entered meanings column]?).map (·.found.idxOf column)).getD 0)

/-- whether a column stands before another -/
def Before (meanings : List Meaning) (column other : String) : Prop :=
  (rank meanings column).1 < (rank meanings other).1 ∨
    (rank meanings column).1 = (rank meanings other).1 ∧
      (rank meanings column).2 < (rank meanings other).2

end Meaning

/-- the columns that a list of meanings stands for -/
structure Expansion (meanings : List Meaning) (result : List String) : Prop where
  /-- no column is there twice -/
  nodup : result.Nodup
  /-- a column is there if the last meaning that has found it adds it -/
  mem_iff : ∀ column, column ∈ result ↔
    ∃ meaning, Meaning.last? meanings column = some meaning ∧ meaning.positive
  /-- the columns stand where they have entered -/
  sorted : result.Pairwise (Meaning.Before meanings)

/-! ## One more meaning -/

namespace Meaning

theorem last?_concat : last? (meanings ++ [meaning]) column =
    if column ∈ meaning.found then some meaning else last? meanings column := by
  simp only [last?, List.reverse_append, List.reverse_singleton, List.singleton_append,
    List.find?_cons]
  by_cases hfound : column ∈ meaning.found <;> simp [hfound]

theorem removed_le : removed meanings column ≤ meanings.length := Nat.sub_le ..

theorem removed_concat : removed (meanings ++ [meaning]) column =
    if removes column meaning then meanings.length + 1 else removed meanings column := by
  simp only [removed, List.reverse_append, List.reverse_singleton, List.singleton_append,
    List.findIdx_cons, List.length_append, List.length_singleton]
  by_cases hremoves : removes column meaning <;> simp [hremoves]

/-- whether a column was added since it was last taken away -/
def Entered (meanings : List Meaning) (column : String) : Prop :=
  ∃ meaning ∈ meanings.drop (removed meanings column), adds column meaning

theorem not_entered_concat (h : removes column meaning) :
    ¬ Entered (meanings ++ [meaning]) column := by
  simp [Entered, removed_concat, h]

theorem entered_concat (h : removes column meaning = false) :
    Entered (meanings ++ [meaning]) column ↔ Entered meanings column ∨ adds column meaning := by
  simp only [Entered, removed_concat, h, Bool.false_eq_true, if_false,
    List.drop_append_of_le_length removed_le, List.mem_append, List.mem_singleton, or_and_right,
    exists_or, exists_eq_left]

/-- A column that has entered did so with one of the meanings. -/
theorem entered_lt (h : Entered meanings column) : entered meanings column < meanings.length := by
  have hlt := List.findIdx_lt_length.mpr h
  have hle : removed meanings column ≤ meanings.length := removed_le
  rw [List.length_drop] at hlt
  rw [entered]
  omega

/-- A column keeps its rank as long as it is not taken away. -/
theorem rank_concat_of_entered (h : Entered meanings column) (hkept : removes column meaning = false) :
    rank (meanings ++ [meaning]) column = rank meanings column := by
  have hentered : entered (meanings ++ [meaning]) column = entered meanings column := by
    simp only [entered, removed_concat, hkept, Bool.false_eq_true, if_false,
      List.drop_append_of_le_length removed_le, List.findIdx_append]
    rw [if_pos (List.findIdx_lt_length.mpr h)]
  rw [rank, rank, hentered, List.getElem?_append_left (entered_lt h)]

theorem removes_eq_false_of_adds (h : adds column meaning) : removes column meaning = false := by
  simp only [adds, Bool.and_eq_true] at h
  simp [removes, h.1]

/-- A column that enters does so with the last meaning. -/
theorem rank_concat_of_adds (h : ¬ Entered meanings column) (hadds : adds column meaning) :
    rank (meanings ++ [meaning]) column = (meanings.length, meaning.found.idxOf column) := by
  have hle : removed meanings column ≤ meanings.length := removed_le
  have hentered : entered (meanings ++ [meaning]) column = meanings.length := by
    simp only [entered, removed_concat, removes_eq_false_of_adds hadds, Bool.false_eq_true,
      if_false, List.drop_append_of_le_length hle, List.findIdx_append]
    rw [if_neg fun hlt => h (List.findIdx_lt_length.mp hlt), List.findIdx_singleton, if_pos hadds,
      List.length_drop]
    omega
  simp [rank, hentered]

instance : Std.Irrefl (Before meanings) := ⟨fun column h => by simp [Before] at h⟩

instance : Std.Antisymm (Before meanings) :=
  ⟨fun column other h h' => by simp only [Before] at h h'; omega⟩

end Meaning

/-! ## The effect of a meaning -/

/-- What is added is new, each column once, in the order in which it is found. -/
theorem foldl_addOnce (found selected : List String) :
    ∃ fresh, found.foldl addOnce selected = selected ++ fresh ∧
      (∀ column, column ∈ fresh ↔ column ∈ found ∧ column ∉ selected) ∧
      fresh.Pairwise (found.idxOf · < found.idxOf ·) := by
  induction found generalizing selected with
  | nil => exact ⟨[], by simp, by simp, .nil⟩
  | cons first rest ih =>
    -- what is found behind the first column keeps its order there
    have hbehind : ∀ fresh : List String, first ∉ fresh →
        fresh.Pairwise (rest.idxOf · < rest.idxOf ·) →
        fresh.Pairwise ((first :: rest).idxOf · < (first :: rest).idxOf ·) := by
      intro fresh hfirst hsorted
      refine hsorted.imp_of_mem fun {column other} hcolumn hother hlt => ?_
      rw [List.idxOf_cons_ne _ (ne_of_mem_of_not_mem hcolumn hfirst).symm,
        List.idxOf_cons_ne _ (ne_of_mem_of_not_mem hother hfirst).symm]
      omega
    rw [List.foldl_cons]
    by_cases hthere : first ∈ selected
    · obtain ⟨fresh, hfold, hmem, hsorted⟩ := ih selected
      refine ⟨fresh, by rw [← hfold]; simp [addOnce, hthere], fun column => ?_, ?_⟩
      · rw [hmem, List.mem_cons, or_and_right]
        refine (or_iff_right ?_).symm
        rintro ⟨rfl, hnot⟩
        exact hnot hthere
      · exact hbehind fresh (fun hfresh => ((hmem first).mp hfresh).2 hthere) hsorted
    · obtain ⟨fresh, hfold, hmem, hsorted⟩ := ih (selected ++ [first])
      have hfirst : first ∉ fresh := fun hfresh => ((hmem first).mp hfresh).2 (by simp)
      refine ⟨first :: fresh, ?_, fun column => ?_, ?_⟩
      · rw [show addOnce selected first = selected ++ [first] by simp [addOnce, hthere], hfold,
          List.append_assoc, List.singleton_append]
      · rw [List.mem_cons, hmem, List.mem_cons, or_and_right]
        by_cases heq : column = first
        · simp [heq, hthere]
        · simp [heq]
      · refine List.pairwise_cons.mpr ⟨fun column hcolumn => ?_, hbehind fresh hfirst hsorted⟩
        rw [List.idxOf_cons_self, List.idxOf_cons_ne _ (ne_of_mem_of_not_mem hcolumn hfirst).symm]
        omega

open Meaning

theorem mem_take : column ∈ take selected meaning ↔
    column ∈ selected ∧ removes column meaning = false ∨ adds column meaning := by
  rcases hpositive : meaning.positive with _ | _
  · simp [take, removes, adds, hpositive]
  · obtain ⟨fresh, hfold, hmem, -⟩ := foldl_addOnce meaning.found selected
    simp only [take, removes, adds, hpositive, if_true, hfold, List.mem_append, hmem]
    by_cases hthere : column ∈ selected <;> simp [hthere]

theorem mem_foldl_take_iff_entered :
    column ∈ meanings.foldl take [] ↔ Entered meanings column := by
  induction meanings using List.reverseRecOn with
  | nil => simp [Entered]
  | append_singleton meanings meaning ih =>
    rw [List.foldl_append, List.foldl_cons, List.foldl_nil, mem_take, ih]
    by_cases hremoves : removes column meaning
    · have hadds : adds column meaning = false := by
        rw [Bool.eq_false_iff]
        exact fun hadds => by simp [removes_eq_false_of_adds hadds] at hremoves
      simp [hremoves, hadds, not_entered_concat hremoves]
    · rw [Bool.not_eq_true] at hremoves
      simp [hremoves, entered_concat hremoves]

theorem mem_foldl_take_iff_last : column ∈ meanings.foldl take [] ↔
    ∃ meaning, last? meanings column = some meaning ∧ meaning.positive := by
  induction meanings using List.reverseRecOn with
  | nil => simp [last?]
  | append_singleton meanings meaning ih =>
    rw [List.foldl_append, List.foldl_cons, List.foldl_nil, mem_take, ih, last?_concat]
    by_cases hfound : column ∈ meaning.found
    · cases hpositive : meaning.positive <;> simp [removes, adds, hfound, hpositive]
    · simp [removes, adds, hfound]

/-- The columns stand in the order in which they have entered. -/
theorem sorted_foldl_take : (meanings.foldl take []).Pairwise (Before meanings) := by
  induction meanings using List.reverseRecOn with
  | nil => exact .nil
  | append_singleton meanings meaning ih =>
    -- columns that are kept keep their ranks, and so their order
    have hkept : ∀ columns : List String, columns.Sublist (meanings.foldl take []) →
        (∀ column ∈ columns, removes column meaning = false) →
        columns.Pairwise (Before (meanings ++ [meaning])) := by
      intro columns hsublist hkept
      refine (ih.sublist hsublist).imp_of_mem fun hcolumn hother hbefore => ?_
      have hrank : ∀ column ∈ columns, rank (meanings ++ [meaning]) column =
          rank meanings column := fun column hcolumn =>
        rank_concat_of_entered (mem_foldl_take_iff_entered.mp (hsublist.subset hcolumn))
          (hkept column hcolumn)
      rwa [Before, hrank _ hcolumn, hrank _ hother]
    rw [List.foldl_append, List.foldl_cons, List.foldl_nil]
    rcases hpositive : meaning.positive with _ | _
    · simp only [take, hpositive, Bool.false_eq_true, if_false]
      refine hkept _ List.filter_sublist fun column hcolumn => ?_
      simpa [removes, hpositive] using (List.mem_filter.mp hcolumn).2
    · obtain ⟨fresh, hfold, hmem, hsorted⟩ := foldl_addOnce meaning.found (meanings.foldl take [])
      simp only [take, hpositive, if_true, hfold]
      have hrank : ∀ column ∈ fresh, rank (meanings ++ [meaning]) column =
          (meanings.length, meaning.found.idxOf column) := by
        intro column hcolumn
        obtain ⟨hfound, hnew⟩ := (hmem column).mp hcolumn
        exact rank_concat_of_adds (fun h => hnew (mem_foldl_take_iff_entered.mpr h))
          (by simp [adds, hpositive, hfound])
      refine List.pairwise_append.mpr ⟨hkept _ (List.Sublist.refl _) ?_, ?_, ?_⟩
      · simp [removes, hpositive]
      · refine hsorted.imp_of_mem fun hcolumn hother hlt => ?_
        rw [Before, hrank _ hcolumn, hrank _ hother]
        exact .inr ⟨rfl, hlt⟩
      · intro column hcolumn other hother
        have hentered := mem_foldl_take_iff_entered.mp hcolumn
        rw [Before, hrank _ hother,
          rank_concat_of_entered hentered (by simp [removes, hpositive])]
        exact .inl (entered_lt hentered)

/-! ## The expansion -/

/-- **Effects one after the other.** Starting from no columns, the effects of meanings lead to the
columns that the meanings stand for. -/
theorem expansion_foldl (meanings : List Meaning) :
    Expansion meanings (meanings.foldl take []) where
  nodup := sorted_foldl_take.nodup
  mem_iff _ := mem_foldl_take_iff_last
  sorted := sorted_foldl_take

/-- A list of meanings stands for no other columns. -/
theorem Expansion.unique {other : List String} (h : Expansion meanings result)
    (hother : Expansion meanings other) : result = other :=
  h.sorted.eq_of_mem_iff hother.sorted fun column => by rw [h.mem_iff, hother.mem_iff]

end TableRecipe.Selector
