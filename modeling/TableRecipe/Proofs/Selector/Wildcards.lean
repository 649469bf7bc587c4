import TableRecipe.Proofs.Pattern.Cuts
import TableRecipe.Selector.Basic

/-!
# Names that wildcards match

A wildcard is translated into a regular expression, its stars into groups. A name matches this
expression if and only if its characters are those of the wildcard, with a text without line breaks
in place of each star.

* `Wildcard.Matches` — a name matches a wildcard;
* `Wildcard.regex` — the regular expression of a wildcard, read unless it is too large;
* `Wildcard.isMatch_regex` — the names that the regular expression finds.
-/

namespace TableRecipe.Wildcard

open Pattern (Part Cut)

/-- a name matches a wildcard: each star stands for a text without line breaks, any other character
for itself -/
inductive Matches : (wildcard name : List Char) → Prop where
  /-- nothing matches nothing -/
  | nil : Matches [] []
  /-- a character that is no star -/
  | char {c : Char} {wildcard name : List Char} (hstar : c ≠ '*') (h : Matches wildcard name) :
    Matches (c :: wildcard) (c :: name)
  /-- a star -/
  | star {text wildcard name : List Char} (hline : '\n' ∉ text) (h : Matches wildcard name) :
    Matches ('*' :: wildcard) (text ++ name)

variable {wildcard name : List Char} {c : Char}

theorem matches_nil_iff : Matches [] name ↔ name = [] :=
  ⟨fun h => by cases h; rfl, fun h => h ▸ .nil⟩

theorem matches_star_iff : Matches ('*' :: wildcard) name ↔
    ∃ text rest, name = text ++ rest ∧ '\n' ∉ text ∧ Matches wildcard rest := by
  constructor
  · intro h
    cases h with
    | char hstar _ => exact (hstar rfl).elim
    | star hline h => exact ⟨_, _, rfl, hline, h⟩
  · rintro ⟨text, rest, rfl, hline, h⟩
    exact .star hline h

theorem matches_char_iff (hstar : c ≠ '*') :
    Matches (c :: wildcard) name ↔ ∃ rest, name = c :: rest ∧ Matches wildcard rest := by
  constructor
  · intro h
    cases h with
    | char _ h => exact ⟨_, rfl, h⟩
    | star _ _ => exact (hstar rfl).elim
  · rintro ⟨rest, rfl, h⟩
    exact .char hstar h

/-! ## The regular expression -/

/-- a character of a wildcard as a part of a regular expression -/
def part (c : Char) : Part := if c = '*' then .group else .literal c

/-- the regular expression of a wildcard -/
def regex (wildcard : List Char) : Pattern.Regex where
  expression := Pattern.lineText (wildcard.map part)
  groups := { count := ((wildcard.map part).map Part.groups).sum }

/-- There is a piece before the first separator. -/
theorem exists_on_eq_cons (separator : Char) (cs : List Char) :
    ∃ piece pieces, Split.on separator cs = piece :: pieces := by
  cases cs with
  | nil => exact ⟨_, _, rfl⟩
  | cons c rest =>
    rw [Split.on]
    split
    · exact ⟨_, _, rfl⟩
    · split <;> exact ⟨_, _, rfl⟩

theorem expression_eq (wildcard : List Char) :
    expression wildcard = (wildcard.map part).flatMap Part.text := by
  show "(.*)".toList.intercalate ((Split.on '*' wildcard).map Pattern.escape) = _
  induction wildcard with
  | nil => rfl
  | cons c rest ih =>
    obtain ⟨piece, pieces, hrest⟩ := exists_on_eq_cons '*' rest
    rw [List.map_cons, List.flatMap_cons, ← ih, Split.on, hrest]
    by_cases hstar : c = '*'
    · rw [if_pos hstar, part, if_pos hstar]
      rfl
    · rw [if_neg hstar, part, if_neg hstar]
      cases pieces <;> simp [List.intercalate, Pattern.escape, Part.text]

/-- The regular expression of a wildcard is read unless it is too large. -/
theorem wholeName?_expression (wildcard : List Char) :
    Selector.wholeName? (expression wildcard) =
      if (regex wildcard).expression.states ≤ Pattern.Expression.maxStates then
        some (regex wildcard)
      else none := by
  rw [expression_eq]
  exact Pattern.read?_lineText (wildcard.map part)

theorem takes_literal {text : List Char} :
    (Part.literal c).Takes {} text ↔ text = [c] := by
  show (∃ d, text = [d] ∧ (Pattern.CharSet.single c).contains d = true) ↔ _
  simp [Pattern.CharSet.contains_single]

theorem takes_group {text : List Char} : Part.group.Takes {} text ↔ '\n' ∉ text := by
  have hdot (d : Char) : (Pattern.dotSet {}).contains d = true ↔ d ≠ '\n' := by
    show (!(Pattern.CharSet.single '\n').contains d) = true ↔ _
    rw [Bool.not_eq_true', ← Bool.not_eq_true, Pattern.CharSet.contains_single]
  show (∀ d ∈ text, (Pattern.dotSet {}).contains d = true) ↔ _
  simp only [hdot]
  exact ⟨fun h hline => h _ hline rfl, fun h d hd hline => h (hline ▸ hd)⟩

/-- **Names that wildcards match.** The regular expression finds the names that match. -/
theorem isMatch_regex : (regex wildcard).isMatch name = true ↔ Matches wildcard name := by
  rw [Pattern.Regex.isMatch_iff (Pattern.isWhole_lineText (wildcard.map part))]
  induction wildcard generalizing name with
  | nil => simp [Pattern.cut_nil, matches_nil_iff]
  | cons c rest ih =>
    rw [List.map_cons, Pattern.exists_cut_cons]
    by_cases hstar : c = '*'
    · subst hstar
      rw [matches_star_iff]
      simp only [ih, show part '*' = .group from rfl, takes_group]
    · rw [matches_char_iff hstar]
      simp [ih, part, hstar, takes_literal]

instance : Decidable (Matches wildcard name) := decidable_of_iff _ isMatch_regex

end TableRecipe.Wildcard
