import TableRecipe.Condition.Evaluate
import TableRecipe.Proofs.Pattern.Cuts
import TableRecipe.Proofs.Text.LetterCase

/-!
# What `LIKE` means

A text has the form of a pattern if it can be cut along the pattern, a piece for each of its
characters. The regular expression into which a pattern is translated finds such a text whatever
the pattern is made of.

* `Like.Fits` — the form of a pattern;
* `Like.hasForm?_eq` — a text is found to have it if it has;
* `Condition.eval_like` — the truth of both conditions.
-/

namespace TableRecipe

namespace Like

open Pattern (Part Cut)

/-- whether a character of a pattern stands for a text: `%` for any one, `_` for any of one
character, every other character for a letter equal to it up to case -/
def StandsFor (p : Char) (text : List Char) : Prop :=
  if p = '%' then True
  else if p = '_' then text.length = 1
  else ∃ c, text = [c] ∧ LetterCase.sameLetter p c = true

/-- whether a text can be cut into pieces that the characters of a pattern stand for -/
def Fits (pattern text : List Char) : Prop :=
  ∃ pieces : List (List Char), text = pieces.flatten ∧ List.Forall₂ StandsFor pattern pieces

/-- about how many states a matcher for a pattern takes -/
def size (pattern : List Char) : Nat := (pattern.map fun p => if p = '%' then 26 else 12).sum + 2

/-- a character of a pattern as a part of a regular expression -/
def part (p : Char) : Part := if p = '%' then .many else if p = '_' then .any else .literal p

theorem expression_eq (pattern : List Char) :
    expression pattern = "(?is)^".toList ++ (pattern.map part).flatMap Part.text ++ ['$'] := by
  have hpiece (p : Char) : piece p = (part p).text := by
    rw [piece, part]
    split
    · rfl
    · split <;> rfl
  show "(?is)^".toList ++ pattern.flatMap piece ++ ['$'] = _
  rw [List.flatMap_map, funext hpiece]

theorem states_eq (pattern : List Char) :
    (Pattern.anyCaseText (pattern.map part)).states = size pattern := by
  have hpart (p : Char) : ((part p).item Pattern.anyCaseFlags 0).states =
      if p = '%' then 26 else 12 := by
    rw [part]
    split
    · rfl
    · split <;> rfl
  rw [Pattern.states_anyCaseText, List.map_map, size]
  congr 3
  exact funext hpart

theorem takes_part {p : Char} {text : List Char} :
    (part p).Takes Pattern.anyCaseFlags text ↔ StandsFor p text := by
  have hletter (c : Char) : (Part.chars Pattern.anyCaseFlags (.literal p)).contains c = true ↔
      LetterCase.sameLetter p c = true := by
    show (LetterCase.variants c).any (Pattern.CharSet.single p).contains = true ↔ _
    rw [List.any_eq_true, ← LetterCase.mem_variants]
    simp only [Pattern.CharSet.contains_single, exists_eq_right]
  rw [part, StandsFor]
  split
  · exact iff_true_intro fun _ _ => rfl
  · split
    · rw [List.length_eq_one_iff]
      exact exists_congr fun c => and_iff_left rfl
    · exact exists_congr fun c => and_congr_right fun _ => hletter c

/-- **The form of a pattern.** A text is found to have it if it can be cut along the pattern. -/
theorem hasForm?_eq {pattern : List Char} (hsize : size pattern ≤ Pattern.Expression.maxStates)
    (text : List Char) :
    ∃ fits : Bool, hasForm? pattern text = some fits ∧ (fits = true ↔ Fits pattern text) := by
  let parts := pattern.map part
  let regex : Pattern.Regex := ⟨Pattern.anyCaseText parts, { count := (parts.map Part.groups).sum }⟩
  have hread : Pattern.read? (expression pattern) = some regex := by
    rw [expression_eq, Pattern.read?_anyCaseText, if_pos (states_eq pattern ▸ hsize)]
  have hwhole : regex.expression.IsWhole Pattern.anyCaseFlags parts :=
    Pattern.isWhole_anyCaseText parts
  refine ⟨regex.isMatch text, by rw [hasForm?, hread]; rfl, ?_⟩
  rw [Pattern.Regex.isMatch_iff hwhole]
  refine exists_congr fun pieces => ?_
  constructor
  · rintro ⟨htakes, hjoined⟩
    exact ⟨hjoined, (List.forall₂_map_left_iff.mp htakes).imp fun _ _ => takes_part.mp⟩
  · rintro ⟨hjoined, hstand⟩
    exact ⟨List.forall₂_map_left_iff.mpr (hstand.imp fun _ _ => takes_part.mpr), hjoined⟩

end Like

namespace Condition

/-- **`LIKE` and `NOT LIKE`.** Of values that are not null the one holds if the text of the value
can be cut along that of the pattern, the other if it cannot. -/
theorem eval_like {row : String → Value} {value pattern : Term}
    (hvalue : (value.value row).isNull = false) (hpattern : (pattern.value row).isNull = false)
    (hsize : Like.size (pattern.value row).text.toList ≤ Pattern.Expression.maxStates) :
    ∃ fits : Bool,
      (fits = true ↔
        Like.Fits (pattern.value row).text.toList (value.value row).text.toList) ∧
      (Condition.like value pattern false).eval row = some fits ∧
      (Condition.like value pattern true).eval row = some !fits := by
  obtain ⟨fits, hfits, hiff⟩ := Like.hasForm?_eq hsize (value.value row).text.toList
  refine ⟨fits, hiff, ?_⟩
  simp [eval, Value.like?, hvalue, hpattern, hfits, Truth.negateIf]

/-- A line break and characters with a meaning in regular expressions, in a pattern and in a
value. -/
theorem eval_like_brackets :
    let value : Value := .string "[Ä]\n(b"
    let pattern : Value := .string "[ä]%(_"
    value.isNull = false ∧ pattern.isNull = false ∧
      Like.size pattern.text.toList ≤ Pattern.Expression.maxStates ∧
      (Condition.like (.literal value) (.literal pattern) false).eval (fun _ => .null) = some true ∧
      (Condition.like (.literal value) (.literal pattern) true).eval (fun _ => .null) =
        some false := by
  intro value pattern
  have hsize : Like.size pattern.text.toList ≤ Pattern.Expression.maxStates := by decide +kernel
  obtain ⟨fits, hfits, hlike, hunlike⟩ :=
    @eval_like (fun _ => .null) (.literal value) (.literal pattern) rfl rfl hsize
  have hcut : Like.Fits pattern.text.toList value.text.toList := by
    have hpattern : pattern.text.toList = ['[', 'ä', ']', '%', '(', '_'] := by decide +kernel
    have hletters : LetterCase.sameLetter '[' '[' = true ∧ LetterCase.sameLetter 'ä' 'Ä' = true ∧
        LetterCase.sameLetter ']' ']' = true ∧ LetterCase.sameLetter '(' '(' = true := by
      decide +kernel
    refine ⟨[['['], ['Ä'], [']'], ['\n'], ['('], ['b']], by decide +kernel, ?_⟩
    simp [hpattern, Like.StandsFor, hletters]
  obtain rfl := hfits.mpr hcut
  exact ⟨rfl, rfl, hsize, hlike, hunlike⟩

end Condition

end TableRecipe
