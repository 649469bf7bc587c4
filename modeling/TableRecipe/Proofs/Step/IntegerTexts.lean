import TableRecipe.Proofs.Number.Texts
import TableRecipe.Proofs.Outcome
import TableRecipe.Step.CellType

/-!
# Integers and their texts

The text of an integer is converted to an integer by way of a floating-point number. So it comes
back as it was if 53 bits are enough for it, and else as the nearest integer for which they are,
clamped to 64 bits.

* `Split.trim_between` — blanks around a text;
* `Decimal.read?_integerText` — the number that the text of an integer denotes;
* `Binary64.truncate_ofInt` — the integer that this number is cut to;
* `CellType.integer_of_text` — what becomes of an integer on the way through its text.
-/

namespace TableRecipe

variable {n : Int} {front back cs : List Char}

/-! ## Reading the text -/

/-- Blanks around a text that neither begins nor ends with one are taken away. -/
theorem Split.trim_between (hfront : ∀ c ∈ front, Letter.isBlank c)
    (hback : ∀ c ∈ back, Letter.isBlank c) (hne : cs ≠ [])
    (hbody : ∀ c ∈ cs, Letter.isBlank c = false) : trim (front ++ cs ++ back) = cs := by
  have hkept {cs rest : List Char} (hne : cs ≠ []) (h : ∀ c ∈ cs, Letter.isBlank c = false) :
      (cs ++ rest).dropWhile Letter.isBlank = cs ++ rest := by
    obtain ⟨first, more, rfl⟩ := List.exists_cons_of_ne_nil hne
    exact List.dropWhile_cons_of_neg (by simp [h first List.mem_cons_self])
  have hstart : trimStart (front ++ cs ++ back) = cs ++ back := by
    rw [trimStart, List.append_assoc, List.dropWhile_append_of_pos hfront, hkept hne hbody]
  rw [trim, hstart, trimEnd, List.reverse_append,
    List.dropWhile_append_of_pos (by simpa using hback)]
  have hend := @hkept cs.reverse [] (by simpa using hne) (by simpa using hbody)
  rw [List.append_nil] at hend
  rw [hend, List.reverse_reverse]

namespace Decimal

/-- The text of an integer has no blanks. -/
theorem isBlank_of_mem_integerText {c : Char} (h : c ∈ Number.integerText n) :
    Letter.isBlank c = false := by
  rw [Number.integerText_eq, Number.signedText, List.mem_append] at h
  rcases h with hsign | hdigit
  · split at hsign
    · rw [List.mem_singleton.mp hsign]
      decide
    · cases hsign
  · exact forall_digit (p := (Letter.isBlank · = false)) (by decide)
      (isDigit_of_mem_toDigits hdigit)

theorem integerText_ne_nil : Number.integerText n ≠ [] := by
  rw [Number.integerText_eq]
  exact List.append_ne_nil_of_right_ne_nil _ Nat.toDigits_ne_nil

/-- The text of an integer denotes it, rounded to 53 bits. -/
theorem read?_integerText (n : Int) : read? (Number.integerText n) = some (.ofInt n) := by
  have hall : ∀ c ∈ Nat.toDigits 10 n.natAbs, isDigit c := fun _ => isDigit_of_mem_toDigits
  have hread (negative : Bool) :
      unsigned? negative (Nat.toDigits 10 n.natAbs) = some (.ofRatio negative n.natAbs 1) := by
    rw [unsigned?_of_digits negative Nat.toDigits_ne_nil hall, natural_toDigits]
    exact congrArg some (Binary64.ofScientific_places (Nat.zero_le _) negative _)
  obtain ⟨first, more, hdigits⟩ :=
    List.exists_cons_of_ne_nil (Nat.toDigits_ne_nil (n := n.natAbs) (b := 10))
  rw [hdigits] at hall hread
  have hfirst : isDigit first := hall first List.mem_cons_self
  rw [Number.integerText, hdigits, Binary64.ofInt]
  by_cases hnegative : n < 0
  · rw [if_pos hnegative, read?_minus_of_digit hfirst, hread, decide_eq_true hnegative]
  · rw [if_neg hnegative, read?_of_digit hfirst, hread, decide_eq_false hnegative]

end Decimal

/-! ## Cutting the number -/

namespace Binary64

/-- The least integer of 64 bits is a floating-point number. -/
theorem minSigned_le_nearest (h : minSigned ≤ n) : minSigned ≤ nearest n := by
  have hleast : nearest minSigned = minSigned := by decide +kernel
  exact hleast ▸ nearest_mono h

/-- An integer rounded to 53 bits is cut to itself, unless it is too great for 64 bits. -/
theorem truncate_ofInt (hlow : minSigned ≤ n) (hhigh : n ≤ maxSigned) :
    (ofInt n).truncate = min (nearest n) maxSigned ∧ (ofInt n).isFinite := by
  have hbound : n.natAbs ≤ integerBound := by
    have hleast : minSigned = -9223372036854775808 := rfl
    have hmost : maxSigned = 9223372036854775807 := rfl
    rw [integerBound]
    omega
  have hnearest := minSigned_le_nearest hlow
  rw [ofInt_eq hbound]
  refine ⟨?_, rfl⟩
  rw [truncate, Nat.mul_div_cancel _ one_pos]
  show (if nearest n < minSigned then minSigned
    else if maxSigned < nearest n then maxSigned else nearest n) = _
  -- rounding leads beyond 64 bits at the upper end only
  rw [if_neg (Int.not_lt.mpr hnearest)]
  split <;> omega

end Binary64

/-! ## Converting -/

namespace CellType

/-- what an integer comes back as from its text: rounded to 53 bits, and clamped to 64 -/
def throughText (n : Int) : Int := min (Binary64.nearest n) Binary64.maxSigned

/-- An integer comes back as it was if it is not rounded; so does the greatest one, which is rounded
up and clamped. -/
theorem throughText_eq_self_iff (hhigh : n ≤ Binary64.maxSigned) :
    throughText n = n ↔ Binary64.nearest n = n ∨ n = Binary64.maxSigned := by
  have hmost : Binary64.maxSigned ≤ Binary64.nearest Binary64.maxSigned := by decide +kernel
  refine ⟨?_, ?_⟩
  · intro h
    rw [throughText] at h
    omega
  · rintro (h | rfl)
    · rw [throughText, h, min_eq_left hhigh]
    · exact min_eq_right hmost

/-- A text is converted to the integer that its number is cut to. -/
theorem convert_integer_string {text : String} {x : Binary64} (hread : number? text = some x)
    (hfinite : x.isFinite) : integer.convert (.string text) = .ok (.ofInt x.truncate) := by
  have hinteger : integer? (.string text) = some (.ofInt x.truncate) := by
    simp [integer?, Value.text, hread, hfinite]
  rw [convert, convert?, Value.isNull, if_neg Bool.false_ne_true, hinteger]
  exact nofun

/-- The text of an integer is converted to what it comes back as. -/
theorem convert_integerText (hlow : Binary64.minSigned ≤ n) (hhigh : n ≤ Binary64.maxSigned)
    (hfront : ∀ c ∈ front, Letter.isBlank c) (hback : ∀ c ∈ back, Letter.isBlank c) :
    integer.convert (.string (String.ofList (front ++ Number.integerText n ++ back))) =
      .ok (.ofInt (throughText n)) := by
  obtain ⟨htruncate, hfinite⟩ := Binary64.truncate_ofInt hlow hhigh
  have hread : number? (String.ofList (front ++ Number.integerText n ++ back)) =
      some (.ofInt n) := by
    rw [number?, String.toList_ofList, Split.trim_between hfront hback
      Decimal.integerText_ne_nil fun c hc => Decimal.isBlank_of_mem_integerText hc]
    exact Decimal.read?_integerText n
  rw [convert_integer_string hread hfinite, htruncate, throughText]

/-- **Integers and their texts.** The text of an integer of 64 bits, with or without blanks around
it, is converted to that integer rounded to 53 bits and clamped to 64, and so the integer itself by
way of its text. It comes back as it was if and only if it is not rounded or is the greatest one; up
to `2 ^ 53` no integer is rounded. -/
theorem integer_of_text (hlow : Binary64.minSigned ≤ n) (hhigh : n ≤ Binary64.maxSigned)
    (hfront : ∀ c ∈ front, Letter.isBlank c) (hback : ∀ c ∈ back, Letter.isBlank c) :
    integer.convert (.string (String.ofList (front ++ Number.integerText n ++ back))) =
        .ok (.ofInt (throughText n)) ∧
      (text.convert (.ofInt n) >>= integer.convert) = .ok (.ofInt (throughText n)) ∧
      (throughText n = n ↔ Binary64.nearest n = n ∨ n = Binary64.maxSigned) ∧
      (n.natAbs ≤ Binary64.greatestExact → throughText n = n) := by
  have htext : text.convert (.ofInt n) = .ok (.string (String.ofList (Number.integerText n))) := rfl
  have halone := @convert_integerText n [] [] hlow hhigh nofun nofun
  rw [List.nil_append, List.append_nil] at halone
  exact ⟨convert_integerText hlow hhigh hfront hback, bind_eq_ok.mpr ⟨_, htext, halone⟩,
    throughText_eq_self_iff hhigh,
    fun hexact => (throughText_eq_self_iff hhigh).mpr (.inl (Binary64.nearest_of_le hexact))⟩

/-- The least integer, between a blank and a line break. -/
theorem integer_of_text_least :
    integer.convert (.string (String.ofList
        ([' '] ++ Number.integerText (-9223372036854775808) ++ ['\n']))) =
        .ok (.ofInt (throughText (-9223372036854775808))) ∧
      (text.convert (.ofInt (-9223372036854775808)) >>= integer.convert) =
        .ok (.ofInt (throughText (-9223372036854775808))) ∧
      (throughText (-9223372036854775808) = -9223372036854775808 ↔
        Binary64.nearest (-9223372036854775808) = -9223372036854775808 ∨
          -9223372036854775808 = Binary64.maxSigned) ∧
      ((-9223372036854775808 : Int).natAbs ≤ Binary64.greatestExact →
        throughText (-9223372036854775808) = -9223372036854775808) :=
  integer_of_text (by decide) (by decide) (List.forall_mem_singleton.mpr (by decide))
    (List.forall_mem_singleton.mpr (by decide))

/-- The first integer that needs 54 bits comes back as another one. -/
theorem integer_changed_by_text :
    (text.convert (.ofInt 9007199254740993) >>= integer.convert) =
        .ok (.ofInt 9007199254740992) ∧
      integer.convert (.string "9007199254740993") ≠ .ok (.ofInt 9007199254740993) := by
  decide +kernel

end CellType

end TableRecipe
