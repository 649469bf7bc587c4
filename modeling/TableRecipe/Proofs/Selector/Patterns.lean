import TableRecipe.Proofs.Pattern.Anchored
import TableRecipe.Proofs.Selector.OptionalMark
import TableRecipe.Proofs.Selector.StarTexts

/-!
# Columns by regular expressions

A selector that is a regular expression selects the columns whose whole names the expression spans.
It does so by putting the pattern into a group between anchors: a pattern that closes a parenthesis
it has not opened closes this group, and is no pattern by itself.

* `Selector.read_pattern` — what is read from such a selector;
* `Selector.SelectsWhole` — the columns it has to select;
* `Selector.expand_pattern` — the columns it selects, or why there are none.
-/

namespace TableRecipe.Selector

open Pattern (Regex Enclosable Unbalanced)

variable {columns selected : List String} {pattern text : String} {regex : Regex}

/-- the selector of the columns that match a pattern -/
def ofPattern (pattern : String) : String := "regex:" ++ pattern

/-- the failure for a text that is no pattern -/
def invalidPattern (pattern : String) : Error :=
  .validation s!"invalid selector pattern '{ofPattern pattern}': "

theorem toList_ofPattern (pattern : String) :
    (ofPattern pattern).toList = "regex:".toList ++ pattern.toList :=
  String.toList_append

theorem isNegated_ofPattern (pattern : String) : isNegated (ofPattern pattern) = false := by
  rw [isNegated, toList_ofPattern]
  rfl

/-- What is read from a regular expression is what is read between the anchors. -/
theorem read_pattern (hmark : pattern.toList.getLast? ≠ some '?') :
    read (ofPattern pattern) = match Pattern.read? (Pattern.anchoredText pattern.toList) with
      | some regex => .ok ⟨ofPattern pattern, false, false, .pattern regex⟩
      | none => .error (invalidPattern pattern) := by
  have htext := toList_ofPattern pattern
  have hunsigned : unsigned (ofPattern pattern) = "regex:".toList ++ pattern.toList := by
    rw [unsigned, isNegated_ofPattern, htext]
    rfl
  have hquestion : (ofPattern pattern).toList.getLast? ≠ some '?' := by
    rw [htext, List.getLast?_append]
    rcases hlast : pattern.toList.getLast? with _ | c
    · decide
    · rw [hlast] at hmark
      exact hmark
  have hafter : Split.after? "regex:".toList ("regex:".toList ++ pattern.toList) =
      some pattern.toList := by
    rw [Split.after?, if_pos (by simp)]
    rfl
  rw [read_unmarked hquestion, hunsigned, isNegated_ofPattern, kindOf, hafter]
  show (match Pattern.read? (Pattern.anchoredText pattern.toList) with
    | some regex => _ | none => _ : Except Error SelectorKind) >>= _ = _
  rcases Pattern.read? (Pattern.anchoredText pattern.toList) with _ | regex
  · rfl
  · show Except.ok (ε := Error) _ = _
    rw [← htext, String.ofList_toList]

/-- the columns whose whole names a regular expression spans -/
structure SelectsWhole (columns : List String) (regex : Regex) (selected : List String) : Prop where
  /-- these are selected -/
  mem_iff : ∀ column, column ∈ selected ↔
    column ∈ columns ∧ regex.expression.SpansWhole column.toList
  /-- each once -/
  nodup : selected.Nodup
  /-- in their order -/
  sublist : selected.Sublist columns

/-- A pattern that stands between the anchors finds the columns whose whole names it spans. -/
theorem expand_of_read? (hmark : pattern.toList.getLast? ≠ some '?')
    (hcolumn : ofPattern pattern ∉ columns)
    (hread : Pattern.read? (Pattern.anchoredText pattern.toList) = some regex.anchored) :
    expand columns [ofPattern pattern] =
      let found := columns.filter fun column => regex.anchored.isMatch column.toList
      if found = [] then .error (.unknownColumn (ofPattern pattern))
      else .ok (found.foldl addOnce []) := by
  have hselector : read (ofPattern pattern) =
      .ok ⟨ofPattern pattern, false, false, .pattern regex.anchored⟩ := by
    rw [read_pattern hmark, hread]
  rw [expand_single (isNegated_ofPattern pattern), apply_of_read hcolumn hselector,
    selectSome_of_ok rfl]
  simp only [and_true]
  split <;> rfl

/-- Where nothing stands between the anchors, the selector is refused. -/
theorem expand_of_read?_none (hmark : pattern.toList.getLast? ≠ some '?')
    (hcolumn : ofPattern pattern ∉ columns)
    (hread : Pattern.read? (Pattern.anchoredText pattern.toList) = none) :
    expand columns [ofPattern pattern] = .error (invalidPattern pattern) := by
  rw [expand_single (isNegated_ofPattern pattern)]
  exact apply_of_read_error hcolumn (by rw [read_pattern hmark, hread])

end TableRecipe.Selector
