import Mathlib.Data.Rat.Cast.Order
import TableRecipe.Connector.Sample
import TableRecipe.Proofs.Number.Texts

/-!
# Templates with bounds

A template such as `<number(1-2.5)>` has two bounds in decimal notation. They are read to integers
if both are integers of 64 bits, and else to the floating-point numbers nearest to them.

* `Sample.Bound` — a bound in decimal notation, with its text and the number that it writes;
* `Sample.templateOf_rangeText` — the two bounds are found in the text of the template;
* `Sample.Bound.read?_text`, `Sample.Bound.value_of_integer?` — what a bound is read to;
* `Sample.ranged_accepted` — what becomes of bounds that are accepted.
-/

namespace TableRecipe

namespace Decimal

/-- What is read to an integer consists of digits behind its sign. -/
theorem eq_of_integer? {least greatest n : Int} {negative : Bool} {first : Char} {more : List Char}
    (hfirst : isDigit first)
    (h : integer? least greatest (Number.signedText negative (first :: more)) = some n) :
    (∀ c ∈ first :: more, isDigit c) ∧ n = Binary64.signed negative (natural (first :: more)) := by
  obtain ⟨hminus, hplus, -, -⟩ : StartsPlain first := forall_digit (by decide) hfirst
  have hread : (if (first :: more).isEmpty || !(first :: more).all isDigit then none
      else if least ≤ Binary64.signed negative (natural (first :: more)) ∧
          Binary64.signed negative (natural (first :: more)) ≤ greatest
        then some (Binary64.signed negative (natural (first :: more))) else none) = some n := by
    rw [← h]
    cases negative with
    | true =>
      have htext : Number.signedText true (first :: more) = '-' :: first :: more := rfl
      rw [htext, integer?]
      simp [Binary64.signed]
    | false =>
      have htext : Number.signedText false (first :: more) = first :: more := rfl
      rw [htext, integer?]
      · simp [Binary64.signed]
      · intro rest heq
        exact hminus (List.cons.inj heq).1
      · intro rest heq
        exact hplus (List.cons.inj heq).1
  split at hread
  · cases hread
  · next hall =>
    obtain ⟨-, hn⟩ := Option.ite_none_right_eq_some.mp hread
    exact ⟨by simpa using hall, (Option.some.inj hn).symm⟩

end Decimal

namespace Sample

open Decimal (natural isDigit)
open Binary64 (signed)

variable {cs rest : List Char}

/-! ## Texts of bounds -/

/-- a bound in decimal notation -/
structure Bound where
  /-- whether there is a minus sign -/
  negative : Bool
  /-- the digits before the point -/
  whole : List Char
  /-- the digits after the point; without any, there is no point -/
  fraction : List Char
  /-- there are digits before the point -/
  whole_ne : whole ≠ []
  /-- all of them are digits -/
  digit : ∀ c ∈ whole ++ fraction, isDigit c

namespace Bound

variable {edge : Bound}

/-- the text without the sign -/
def unsigned (edge : Bound) : List Char :=
  if edge.fraction = [] then edge.whole else edge.whole ++ '.' :: edge.fraction

/-- the text -/
def text (edge : Bound) : List Char := Number.signedText edge.negative edge.unsigned

/-- the number that all the digits write -/
def digits (edge : Bound) : Nat := natural (edge.whole ++ edge.fraction)

/-- the number that the text writes -/
def value (edge : Bound) : ℚ := signed edge.negative edge.digits / 10 ^ edge.fraction.length

/-- the number that the text is read to -/
def number (edge : Bound) : Binary64 :=
  .ofScientific edge.negative edge.digits (-edge.fraction.length)

theorem exists_unsigned_eq (edge : Bound) :
    ∃ first more, edge.unsigned = first :: more ∧ isDigit first := by
  obtain ⟨first, more, hwhole⟩ := List.exists_cons_of_ne_nil edge.whole_ne
  have hfirst : isDigit first := edge.digit first (by simp [hwhole])
  rw [unsigned, hwhole]
  split
  · exact ⟨first, more, rfl, hfirst⟩
  · exact ⟨first, more ++ '.' :: edge.fraction, rfl, hfirst⟩

theorem unsigned?_unsigned (edge : Bound) :
    Decimal.unsigned? edge.negative edge.unsigned = some edge.number := by
  have hwhole : ∀ c ∈ edge.whole, isDigit c := fun c hc => edge.digit c (List.mem_append_left _ hc)
  have hfraction : ∀ c ∈ edge.fraction, isDigit c :=
    fun c hc => edge.digit c (List.mem_append_right _ hc)
  rw [unsigned, number, digits]
  split
  · next hnone =>
    rw [Decimal.unsigned?_of_digits _ edge.whole_ne hwhole, hnone, List.append_nil]
    rfl
  · exact Decimal.unsigned?_point _ edge.whole_ne hwhole hfraction

/-- A bound is read to a floating-point number. -/
theorem read?_text (edge : Bound) : Decimal.read? edge.text = some edge.number := by
  obtain ⟨first, more, hunsigned, hfirst⟩ := edge.exists_unsigned_eq
  rw [← unsigned?_unsigned, text, hunsigned, Number.signedText]
  cases edge.negative with
  | false => exact Decimal.read?_of_digit hfirst
  | true => exact Decimal.read?_minus_of_digit hfirst

/-- A bound that is read to an integer of 64 bits is that integer. -/
theorem value_of_integer? {n : Int} (h : integer? edge.text = some n) : edge.value = n := by
  obtain ⟨first, more, hunsigned, hfirst⟩ := edge.exists_unsigned_eq
  rw [text, hunsigned] at h
  obtain ⟨hall, rfl⟩ := Decimal.eq_of_integer? hfirst h
  rw [← hunsigned] at hall ⊢
  have hfraction : edge.fraction = [] := by
    by_contra hpoint
    rw [unsigned, if_neg hpoint] at hall
    have hdigit : isDigit '.' := hall '.' (by simp)
    exact absurd hdigit (by decide)
  rw [value, digits, unsigned, if_pos hfraction, hfraction, List.append_nil, List.length_nil,
    pow_zero, div_one]

end Bound

/-! ## Templates with bounds -/

theorem isDecimalDigit_of_isDigit {c : Char} (h : isDigit c) : Letter.isDecimalDigit c :=
  Decimal.forall_digit (p := (Letter.isDecimalDigit ·)) (by decide) h

theorem takeWhile_digits (hdigits : ∀ c ∈ cs, isDigit c)
    (hrest : ∀ c ∈ rest.head?, Letter.isDecimalDigit c = false) :
    (cs ++ rest).takeWhile Letter.isDecimalDigit = cs ∧
      (cs ++ rest).dropWhile Letter.isDecimalDigit = rest :=
  Decimal.takeWhile_append_stop (fun c hc => isDecimalDigit_of_isDigit (hdigits c hc)) hrest

namespace Bound

variable {edge : Bound} {c : Char}

theorem takeWhile_unsigned (hdigit : Letter.isDecimalDigit c = false) :
    (edge.unsigned ++ c :: rest).takeWhile Letter.isDecimalDigit = edge.whole ∧
      (edge.unsigned ++ c :: rest).dropWhile Letter.isDecimalDigit =
        if edge.fraction = [] then c :: rest else '.' :: (edge.fraction ++ c :: rest) := by
  have hwhole := fun c hc => edge.digit c (List.mem_append_left _ hc)
  rw [unsigned]
  split
  · exact takeWhile_digits hwhole (by simpa using hdigit)
  · rw [List.append_assoc, List.cons_append]
    exact takeWhile_digits hwhole (by simp; decide)

/-- A bound is read up to a character that cannot continue it. -/
theorem readBound_text (hdigit : Letter.isDecimalDigit c = false) (hpoint : c ≠ '.') :
    readBound (edge.text ++ c :: rest) = some (edge.text, c :: rest) := by
  obtain ⟨htake, hdrop⟩ := @takeWhile_unsigned rest edge c hdigit
  obtain ⟨hfraction, hrest⟩ := @takeWhile_digits edge.fraction (c :: rest)
    (fun c hc => edge.digit c (List.mem_append_right _ hc)) (by simpa using hdigit)
  unfold readBound
  split
  next sign body hsign =>
  obtain ⟨rfl, rfl⟩ : sign = (if edge.negative then ['-'] else []) ∧
      body = edge.unsigned ++ c :: rest := by
    obtain ⟨first, more, hunsigned, hfirst⟩ := edge.exists_unsigned_eq
    obtain ⟨hminus, -⟩ : Decimal.StartsPlain first := Decimal.forall_digit (by decide) hfirst
    rw [text, Number.signedText, hunsigned] at hsign
    rw [hunsigned]
    cases hnegative : edge.negative <;> rw [hnegative] at hsign
    · split at hsign
      · next heq => exact absurd (List.cons.inj heq).1 hminus
      · exact ⟨(Prod.mk.inj hsign).1.symm, (Prod.mk.inj hsign).2.symm⟩
    · exact ⟨(Prod.mk.inj hsign).1.symm, (Prod.mk.inj hsign).2.symm⟩
  dsimp only
  rw [htake, hdrop, if_neg (by simp [edge.whole_ne]), text, Number.signedText, unsigned]
  by_cases hnone : edge.fraction = []
  · rw [if_pos hnone, if_pos hnone]
    split
    · next heq => exact absurd (List.cons.inj heq).1 hpoint
    · rfl
  · simp [hnone, hfraction, hrest]

end Bound

/-- the text of a template with bounds -/
def rangeText (low high : Bound) : String :=
  String.ofList ("<number(".toList ++ (low.text ++ '-' :: (high.text ++ [')', '>'])))

theorem toList_rangeText (low high : Bound) : (rangeText low high).toList =
    "<number(".toList ++ (low.text ++ '-' :: (high.text ++ [')', '>'])) := String.toList_ofList

theorem after?_append (lead more : List Char) : Split.after? lead (lead ++ more) = some more := by
  rw [Split.after?, if_pos (List.isPrefixOf_iff_prefix.mpr (List.prefix_append lead more)),
    List.drop_left]

theorem readRange_rangeText (low high : Bound) :
    readRange (rangeText low high) = some (low.text, high.text) := by
  have hlead : Split.after? "<number(".toList (rangeText low high).toList =
      some (low.text ++ '-' :: (high.text ++ [')', '>'])) := by
    rw [toList_rangeText]
    exact after?_append _ _
  have hlow : readBound (low.text ++ '-' :: (high.text ++ [')', '>'])) =
      some (low.text, '-' :: (high.text ++ [')', '>'])) :=
    Bound.readBound_text (by decide) (by decide)
  have hdash : Split.after? ['-'] ('-' :: (high.text ++ [')', '>'])) =
      some (high.text ++ [')', '>']) := after?_append ['-'] _
  have hhigh : readBound (high.text ++ [')', '>']) = some (high.text, [')', '>']) :=
    Bound.readBound_text (by decide) (by decide)
  unfold readRange
  simp only [hlead, hlow, hdash, hhigh, bind, Option.bind, if_true]

theorem templateOf_rangeText (low high : Bound) :
    templateOf (.string (rangeText low high)) = ranged low.text high.text := by
  have hne (word : String) (hword : word.toList[7]? ≠ some '(') : rangeText low high ≠ word := by
    rintro rfl
    rw [toList_rangeText, List.getElem?_append_left (by decide)] at hword
    exact hword (by decide)
  rw [templateOf]
  · rw [readRange_rangeText]
  all_goals exact hne _ (by decide)

theorem ranged_integer {first last : Int} {low high : List Char} (hlow : integer? low = some first)
    (hhigh : integer? high = some last) : ranged low high =
      if last < first then
        .invalid (emptyRange (Number.integerText first) (Number.integerText last))
      else .integer first last := by
  rw [ranged, hlow, hhigh]

theorem ranged_decimal {low high : Bound}
    (h : integer? low.text = none ∨ integer? high.text = none) : ranged low.text high.text =
      if low.number.compare? high.number = some .gt then
        .invalid (emptyRange (low.number.text .plain) (high.number.text .plain))
      else if low.number.isFinite && high.number.isFinite then .decimal low.number high.number
      else .invalid (.of .overflow) := by
  rw [ranged, low.read?_text, high.read?_text]
  rcases h with h | h
  · rw [h]
  · rw [h]
    cases integer? low.text <;> rfl

/-- Bounds that are accepted are integers in order, or finite floating-point numbers in order. -/
theorem ranged_accepted {low high : Bound}
    (h : ∀ error, ranged low.text high.text ≠ .invalid error) :
    (∃ first last : Int, first ≤ last ∧ low.value = first ∧ high.value = last ∧
      ranged low.text high.text = .integer first last) ∨
    ((integer? low.text = none ∨ integer? high.text = none) ∧
      ∃ n a m b, low.number = .finite n a ∧ high.number = .finite m b ∧
        signed n a ≤ signed m b ∧
        ranged low.text high.text = .decimal (.finite n a) (.finite m b)) := by
  by_cases hnone : integer? low.text = none ∨ integer? high.text = none
  · rw [ranged_decimal hnone] at h ⊢
    have horder : low.number.compare? high.number ≠ some .gt := fun hgt => h _ (if_pos hgt)
    rw [if_neg horder] at h ⊢
    have hfinite : low.number.isFinite && high.number.isFinite :=
      Decidable.by_contra fun hinfinite => h _ (if_neg hinfinite)
    rw [if_pos hfinite]
    rw [Bool.and_eq_true] at hfinite
    obtain ⟨n, a, hlow⟩ := Binary64.exists_eq_finite hfinite.1
    obtain ⟨m, b, hhigh⟩ := Binary64.exists_eq_finite hfinite.2
    rw [hlow, hhigh] at horder ⊢
    exact .inr ⟨hnone, n, a, m, b, rfl, rfl, Binary64.compare?_ne_gt_iff.mp horder, rfl⟩
  · simp only [not_or, ← ne_eq, Option.ne_none_iff_exists'] at hnone
    obtain ⟨⟨first, hfirst⟩, last, hlast⟩ := hnone
    rw [ranged_integer hfirst hlast] at h ⊢
    have hle : ¬last < first := fun hlt => h _ (if_pos hlt)
    exact .inl ⟨first, last, Int.not_lt.mp hle, Bound.value_of_integer? hfirst,
      Bound.value_of_integer? hlast, if_neg hle⟩

end Sample

end TableRecipe
