import Mathlib.Algebra.Group.Nat.Defs
import TableRecipe.Number.Decimal

/-!
# Whole numbers

Whole numbers up to `2 ^ 53` are floating-point numbers. A text of digits denotes the whole number
that they write.

* `Binary64.greatestExact` — the bound up to which every whole number is exact;
* `Binary64.ofRatio_whole` — a whole number is not rounded;
* `Decimal.read?_of_digits` — the number that digits denote.
-/

namespace TableRecipe

namespace Binary64

variable {n : Nat} {negative : Bool}

/-- the bound up to which every whole number is a floating-point number -/
def greatestExact : Nat := Nat.pow 2 53

theorem log2_mul_two_pow (h : n ≠ 0) (places : Nat) :
    Nat.log2 (n * 2 ^ places) = Nat.log2 n + places := by
  induction places with
  | zero => simp
  | succ places ih =>
    have hne : n * 2 ^ places ≠ 0 := Nat.mul_ne_zero h (Nat.ne_of_gt (Nat.two_pow_pos places))
    rw [Nat.pow_succ, ← Nat.mul_assoc, Nat.mul_comm, Nat.log2_two_mul hne, ih, Nat.add_assoc]

/-- A number of at most 53 bits, or the next one, ends in all the bits that its mantissa drops. -/
theorem exists_mul_two_pow (h : n ≤ 2 ^ 53) (places : Nat) :
    ∃ k, n <<< places = k * 2 ^ exponent (n <<< places) := by
  rw [Nat.shiftLeft_eq]
  by_cases hzero : n = 0
  · exact ⟨0, by simp [hzero]⟩
  · rw [exponent, log2_mul_two_pow hzero]
    by_cases hsmall : Nat.log2 n ≤ 52
    · refine ⟨n * 2 ^ (places - (Nat.log2 n + places - 52)), ?_⟩
      rw [Nat.mul_assoc, ← Nat.pow_add, Nat.sub_add_cancel (by omega)]
    · -- the one number of 54 bits is a power of two
      have hle : 2 ^ 53 ≤ n := (Nat.le_log2 hzero).mp (by omega)
      obtain rfl : n = 2 ^ 53 := Nat.le_antisymm h hle
      refine ⟨2 ^ 52, ?_⟩
      rw [Nat.log2_two_pow, ← Nat.pow_add, ← Nat.pow_add]
      congr 1
      omega

/-- The nearest number to a quotient that leaves no rest is the quotient. -/
theorem roundQuotient_mul (k : Nat) {den : Nat} (h : 0 < den) :
    roundQuotient (k * den) den = k := by
  simp [roundQuotient, h]

theorem one_eq : one = 1 <<< 1074 := by decide +kernel

theorem shiftLeft_eq_mul (n places : Nat) : n <<< places = n * 1 <<< places := by
  rw [Nat.shiftLeft_eq, Nat.shiftLeft_eq, Nat.one_mul]

theorem shiftLeft_eq_mul_one (n : Nat) : n <<< 1074 = n * one :=
  (shiftLeft_eq_mul n 1074).trans (congrArg (n * ·) one_eq.symm)

theorem mul_one_lt_bound (h : n ≤ greatestExact) : n * one < bound :=
  Nat.lt_of_le_of_lt (Nat.mul_le_mul_right one h) (by decide +kernel)

/-- A whole number is not rounded. -/
theorem ofRatio_whole (h : n ≤ greatestExact) :
    ofRatio negative n 1 = .finite negative (n * one) := by
  have hbound := mul_one_lt_bound h
  obtain ⟨k, hk⟩ := exists_mul_two_pow h 1074
  rw [← shiftLeft_eq_mul_one] at hbound ⊢
  generalize hunits : n <<< 1074 = units at hk hbound
  have hround : roundQuotient units (1 <<< exponent units) = k := by
    rw [Nat.shiftLeft_eq, Nat.one_mul]
    exact (congrArg (roundQuotient · _) hk).trans (roundQuotient_mul k (Nat.two_pow_pos _))
  simp only [ofRatio, hunits, Nat.div_one, hround, Nat.shiftLeft_eq k, ← hk]
  exact if_pos hbound

theorem one_pos : 0 < one := by decide +kernel

theorem isWhole_whole : (finite negative (n * one)).isWhole := by simp [isWhole]

theorem isBelow_whole {limit : Nat} (h : n < limit) :
    (finite negative (n * one)).isBelow limit := by
  simp [isBelow, Nat.mul_lt_mul_of_pos_right h one_pos]

theorem lt_of_exact (h : n ≤ greatestExact) : n < Nat.pow 2 63 :=
  Nat.lt_of_le_of_lt h (by decide)

/-- The integer part of a whole number is the number. -/
theorem truncate_whole (h : n < Nat.pow 2 63) :
    (finite negative (n * one)).truncate = signed negative n := by
  have hlimit : Nat.pow 2 63 = 9223372036854775808 := rfl
  have hleast : minSigned = -9223372036854775808 := rfl
  have hmost : maxSigned = 9223372036854775807 := rfl
  have hbounds : minSigned ≤ signed negative n ∧ signed negative n ≤ maxSigned := by
    cases negative <;> simp only [signed, Bool.false_eq_true, if_false, if_true] <;> omega
  simp only [truncate, Nat.mul_div_cancel n one_pos]
  rw [if_neg (by omega), if_neg (by omega)]

end Binary64

namespace Decimal

variable {n : Nat} {c : Char} {digits : List Char}

theorem isDigit_iff {c : Char} : isDigit c ↔ c.isDigit := by
  simp [isDigit, Char.isDigit, Char.le_def]

/-- What holds of ten digits holds of every digit. -/
theorem forall_digit {p : Char → Prop} (h : ∀ d < 10, p (Nat.digitChar d)) (hc : isDigit c) :
    p c := by
  simp only [isDigit, Bool.and_eq_true, decide_eq_true_eq, Char.le_def,
    UInt32.le_iff_toNat_le] at hc
  obtain ⟨hlow, hhigh⟩ : 48 ≤ c.toNat ∧ c.toNat ≤ 57 := hc
  have hwritten : ∀ d < 10, Char.ofNat (48 + d) = Nat.digitChar d := by decide
  have hchar : Nat.digitChar (c.toNat - 48) = c := by
    rw [← hwritten _ (by omega), Nat.add_sub_cancel' hlow, Char.ofNat_toNat]
  exact hchar ▸ h _ (by omega)

/-- An integer that is read lies within the bounds that were given. -/
theorem integer?_bounds {least greatest value : Int} {cs : List Char}
    (h : integer? least greatest cs = some value) : least ≤ value ∧ value ≤ greatest := by
  unfold integer? at h
  split at h
  split at h
  · cases h
  · obtain ⟨hbounds, hvalue⟩ := Option.ite_none_right_eq_some.mp h
    obtain rfl := Option.some.inj hvalue
    simpa using hbounds

theorem isDigit_of_mem_toDigits (h : c ∈ Nat.toDigits 10 n) : isDigit c :=
  isDigit_iff.mpr (Nat.isDigit_of_mem_toDigits (by omega) (by omega) h)

theorem natural_toDigits (n : Nat) : natural (Nat.toDigits 10 n) = n := by
  have hfold : natural (Nat.toDigits 10 n) = Nat.ofDigitChars 10 (Nat.toDigits 10 n) 0 := by
    simp only [natural, Nat.ofDigitChars, digit, Nat.mul_comm]
  rw [hfold, Nat.ofDigitChars_ten_toDigits]

/-- no sign, and no first letter of a word that denotes a number -/
def StartsPlain (c : Char) : Prop := c ≠ '-' ∧ c ≠ '+' ∧ c.toLower ≠ 'i' ∧ c.toLower ≠ 'n'

instance : Decidable (StartsPlain c) := inferInstanceAs (Decidable (_ ∧ _))

/-- What begins with a digit is no word. -/
theorem word_ne_of_digit {first : Char} {more : List Char} (h : isDigit first) :
    let word := String.ofList ((first :: more).map Char.toLower)
    word ≠ "inf" ∧ word ≠ "infinity" ∧ word ≠ "nan" := by
  obtain ⟨-, -, hi, hn⟩ : StartsPlain first := forall_digit (by decide) h
  have hword : ∀ word : String, word.toList.head? ≠ some first.toLower →
      String.ofList ((first :: more).map Char.toLower) ≠ word := by
    rintro _ hhead rfl
    simp at hhead
  exact ⟨hword "inf" (by simpa using hi.symm), hword "infinity" (by simpa using hi.symm),
    hword "nan" (by simpa using hn.symm)⟩

/-- What begins with a digit has no sign and is no word. -/
theorem read?_of_digit {first : Char} {more : List Char} (h : isDigit first) :
    read? (first :: more) = unsigned? false (first :: more) := by
  obtain ⟨hminus, hplus, -, -⟩ : StartsPlain first := forall_digit (by decide) h
  obtain ⟨hinf, hinfinity, hnan⟩ := @word_ne_of_digit first more h
  rw [read?]
  · simp only [hinf, hinfinity, hnan, decide_false, Bool.or_self, Bool.false_eq_true, if_false]
  · intro rest h
    exact hminus (List.cons.inj h).1
  · intro rest h
    exact hplus (List.cons.inj h).1

/-- What begins with a digit is no word behind a minus sign, either. -/
theorem read?_minus_of_digit {first : Char} {more : List Char} (h : isDigit first) :
    read? ('-' :: first :: more) = unsigned? true (first :: more) := by
  obtain ⟨hinf, hinfinity, hnan⟩ := @word_ne_of_digit first more h
  rw [read?]
  simp only [hinf, hinfinity, hnan, decide_false, Bool.or_self, Bool.false_eq_true, if_false]

/-- The longest run of characters at the front ends where the next one does not belong to it. -/
theorem takeWhile_append_stop {p : Char → Bool} {rest : List Char} (hall : ∀ c ∈ digits, p c)
    (hrest : ∀ c ∈ rest.head?, p c = false) :
    (digits ++ rest).takeWhile p = digits ∧ (digits ++ rest).dropWhile p = rest := by
  rw [List.takeWhile_append_of_pos hall, List.dropWhile_append_of_pos hall]
  cases rest with
  | nil => simp
  | cons c more => simp [hrest c rfl]

theorem spanDigits_append {rest : List Char} (hall : ∀ c ∈ digits, isDigit c)
    (hrest : ∀ c ∈ rest.head?, isDigit c = false) :
    spanDigits (digits ++ rest) = (digits, rest) := by
  obtain ⟨htake, hdrop⟩ := takeWhile_append_stop hall hrest
  rw [spanDigits, htake, hdrop]

/-- Digits alone have no fraction and no exponent. -/
theorem unsigned?_of_digits (negative : Bool) (hne : digits ≠ []) (hall : ∀ c ∈ digits, isDigit c) :
    unsigned? negative digits = some (.ofScientific negative (natural digits) 0) := by
  have hspan : spanDigits (digits ++ []) = (digits, []) := spanDigits_append hall (by simp)
  rw [List.append_nil] at hspan
  rw [unsigned?, hspan]
  simp [hne]

/-- Digits alone have no sign, no fraction and no exponent, and are no word. -/
theorem read?_of_digits (hne : digits ≠ []) (hall : ∀ c ∈ digits, isDigit c) :
    read? digits = some (.ofScientific false (natural digits) 0) := by
  obtain ⟨first, more, rfl⟩ := List.exists_cons_of_ne_nil hne
  rw [read?_of_digit (hall first (List.mem_cons_self ..)), unsigned?_of_digits false hne hall]

end Decimal

end TableRecipe
