import Mathlib.Algebra.Order.Ring.Nat
import TableRecipe.Number.Shortest
import TableRecipe.Proofs.Number.Whole

/-!
# Rounding to floating-point numbers

A quotient is rounded to a floating-point number if it lies in the interval around that number. A
whole number keeps its 53 leading bits, a tie going to the even side; so the order of integers is
kept, but different ones may become equal.

* `Binary64.nearestQuotient`, `Binary64.ofRatio_eq` — what a quotient is rounded to;
* `Binary64.nearestQuotient_mono`, `Binary64.nearestQuotient_close` — it keeps the order, and is at
  most half of a last bit away;
* `Shortest.Interval.Contains` — whether a quotient lies in the interval around a number;
* `Binary64.ofRatio_of_contains` — such a quotient is rounded to the number;
* `Binary64.nearestWhole`, `Binary64.nearest` — what a whole number and an integer are rounded to;
* `Binary64.ofRatio_natural`, `Binary64.ofInt_eq` — they are rounded to just that;
* `Binary64.nearest_mono`, `Binary64.compare?_ofInt` — the order of integers that are rounded.
-/

namespace TableRecipe

/-! ## Quotients -/

section

variable {num den k m n : Nat}

/-- A quotient is rounded to what is at most half away, a tie going to the even side. -/
theorem roundQuotient_eq (hden : 0 < den) (hlow : 2 * (k * den) ≤ 2 * num + den)
    (hhigh : 2 * num ≤ 2 * (k * den) + den)
    (htie : k % 2 = 0 ∨ 2 * (k * den) < 2 * num + den ∧ 2 * num < 2 * (k * den) + den) :
    roundQuotient num den = k := by
  have hnum : num / den * den + num % den = num := Nat.div_add_mod' num den
  have hrest : num % den < den := Nat.mod_lt num hden
  rw [roundQuotient]
  generalize num / den = quotient at hnum ⊢
  generalize num % den = rest at hnum hrest ⊢
  have hle : quotient ≤ k := by
    refine Nat.le_of_lt_succ (Nat.lt_of_mul_lt_mul_right (a := den) ?_)
    rw [Nat.succ_mul]
    omega
  have hge : k ≤ quotient + 1 := by
    refine Nat.le_of_lt_succ (Nat.lt_of_mul_lt_mul_right (a := den) ?_)
    rw [Nat.succ_mul, Nat.succ_mul]
    omega
  obtain rfl | rfl : k = quotient ∨ k = quotient + 1 := by omega
  · split
    · rfl
    · split
      · omega
      · rw [if_pos (by omega)]
  · rw [Nat.add_mul] at hlow hhigh htie
    split
    · omega
    · split
      · rfl
      · rw [if_neg (by omega)]

/-- A common factor does not change a quotient. -/
theorem roundQuotient_mul_right {c : Nat} (hc : 0 < c) :
    roundQuotient (num * c) (den * c) = roundQuotient num den := by
  simp only [roundQuotient, Nat.mul_div_mul_right _ _ hc, Nat.mul_mod_mul_right, ← Nat.mul_assoc,
    Nat.mul_lt_mul_right hc]

theorem roundQuotient_bounds :
    num / den ≤ roundQuotient num den ∧ roundQuotient num den ≤ num / den + 1 := by
  simp only [roundQuotient]
  split_ifs <;> omega

/-- Rounding keeps the order. -/
theorem roundQuotient_mono (h : m ≤ n) : roundQuotient m den ≤ roundQuotient n den := by
  have hm : m / den * den + m % den = m := Nat.div_add_mod' m den
  have hn : n / den * den + n % den = n := Nat.div_add_mod' n den
  have hquotient : m / den ≤ n / den := Nat.div_le_div_right h
  rcases hquotient.eq_or_lt with heq | hlt
  · -- the rests decide
    rw [heq] at hm
    have hrest : m % den ≤ n % den := by omega
    simp only [roundQuotient, heq]
    split_ifs <;> omega
  · exact (roundQuotient_bounds.2.trans hlt).trans roundQuotient_bounds.1

theorem le_roundQuotient (hden : 0 < den) (h : k * den ≤ num) : k ≤ roundQuotient num den := by
  have hmono : roundQuotient (k * den) den ≤ roundQuotient num den := roundQuotient_mono h
  rwa [Binary64.roundQuotient_mul k hden] at hmono

theorem roundQuotient_le (hden : 0 < den) (h : num ≤ k * den) : roundQuotient num den ≤ k := by
  have hmono : roundQuotient num den ≤ roundQuotient (k * den) den := roundQuotient_mono h
  rwa [Binary64.roundQuotient_mul k hden] at hmono

/-- What is rounded is at most half away. -/
theorem roundQuotient_close (hden : 0 < den) :
    2 * (roundQuotient num den * den) ≤ 2 * num + den ∧
      2 * num ≤ 2 * (roundQuotient num den * den) + den := by
  have hnum : num / den * den + num % den = num := Nat.div_add_mod' num den
  have hrest : num % den < den := Nat.mod_lt num hden
  have hsucc : (num / den + 1) * den = num / den * den + den := Nat.succ_mul ..
  simp only [roundQuotient]
  split_ifs <;> omega

end

/-! ## Mantissas -/

namespace Binary64

variable {units num den n k places : Nat} {negative : Bool}

/-- A count of units with fewer than 53 bits drops none of them. -/
theorem exponent_eq_zero (h : units < 2 ^ 53) : exponent units = 0 := by
  rw [exponent]
  by_cases hzero : units = 0
  · simp [hzero]
  · have hlog : Nat.log2 units < 53 := (Nat.log2_lt hzero).mpr h
    omega

theorem exponent_eq (hlow : 2 ^ (52 + places) ≤ units) (hhigh : units < 2 ^ (53 + places)) :
    exponent units = places := by
  have hne : units ≠ 0 := by
    have hpos := Nat.two_pow_pos (52 + places)
    omega
  have hle : 52 + places ≤ Nat.log2 units := (Nat.le_log2 hne).mpr hlow
  have hlt : Nat.log2 units < 53 + places := (Nat.log2_lt hne).mpr hhigh
  rw [exponent]
  omega

/-- Where bits are dropped, the mantissa has 53 bits. -/
theorem two_pow_le_of_exponent_pos (h : 0 < exponent units) :
    2 ^ (52 + exponent units) ≤ units := by
  have hne : units ≠ 0 := by
    rintro rfl
    simp [exponent] at h
  rw [exponent] at h
  rw [← Nat.le_log2 hne, exponent]
  omega

theorem lt_two_pow_exponent (units : Nat) : units < 2 ^ (53 + exponent units) := by
  by_cases hzero : units = 0
  · rw [hzero]
    exact Nat.two_pow_pos _
  · rw [← Nat.log2_lt hzero, exponent]
    omega

/-- the mantissa of a count of units -/
def mantissa (units : Nat) : Nat := units >>> exponent units

theorem mantissa_mul (h : Representable units) : mantissa units * 2 ^ exponent units = units := by
  rw [mantissa, Nat.shiftRight_eq_div_pow]
  exact Nat.div_mul_cancel (Nat.dvd_of_mod_eq_zero h.2)

theorem mantissa_lt (units : Nat) : mantissa units < 2 ^ 53 := by
  rw [mantissa, Nat.shiftRight_eq_div_pow, Nat.div_lt_iff_lt_mul (Nat.two_pow_pos _), ← Nat.pow_add]
  exact lt_two_pow_exponent units

theorem le_mantissa (h : 0 < exponent units) : 2 ^ 52 ≤ mantissa units := by
  rw [mantissa, Nat.shiftRight_eq_div_pow, Nat.le_div_iff_mul_le (Nat.two_pow_pos _), ← Nat.pow_add]
  exact two_pow_le_of_exponent_pos h

/-! ## Quotients of units -/

theorem exponent_mono {m : Nat} (h : m ≤ n) : exponent m ≤ exponent n := by
  by_cases hpos : 0 < exponent m
  · have hlow := (two_pow_le_of_exponent_pos hpos).trans h
    have hlt : 52 + exponent m < 53 + exponent n :=
      (Nat.pow_lt_pow_iff_right (by omega)).mp (hlow.trans_lt (lt_two_pow_exponent n))
    omega
  · omega

/-- a quotient rounded to 53 bits -/
def nearestQuotient (num den : Nat) : Nat :=
  roundQuotient num (den * 2 ^ exponent (num / den)) * 2 ^ exponent (num / den)

theorem ofRatio_eq (negative : Bool) (num den : Nat) : ofRatio negative num den =
    if nearestQuotient (num * one) den < bound
      then .finite negative (nearestQuotient (num * one) den) else .infinite negative := by
  simp only [ofRatio, shiftLeft_eq_mul_one]
  simp only [Nat.shiftLeft_eq, nearestQuotient]
  rfl

theorem ofRatio_zero (negative : Bool) (hden : 0 < den) :
    ofRatio negative 0 den = .finite negative 0 := by
  have hzero : nearestQuotient 0 den = 0 := by
    have hround := roundQuotient_mul 0 (Nat.mul_pos hden (Nat.two_pow_pos (exponent (0 / den))))
    rw [Nat.zero_mul] at hround
    rw [nearestQuotient, hround, Nat.zero_mul]
  rw [ofRatio_eq, Nat.zero_mul, hzero]
  exact if_pos ((Nat.zero_le _).trans_lt (mul_one_lt_bound (Nat.zero_le _)))

/-- A common factor does not change what a quotient is rounded to. -/
theorem nearestQuotient_mul_right {c : Nat} (hc : 0 < c) :
    nearestQuotient (num * c) (den * c) = nearestQuotient num den := by
  rw [nearestQuotient, Nat.mul_div_mul_right _ _ hc, Nat.mul_right_comm,
    roundQuotient_mul_right hc, nearestQuotient]

theorem two_pow_add_mul (k places den : Nat) :
    2 ^ (k + places) * den = 2 ^ k * (den * 2 ^ places) := by
  rw [Nat.pow_add, Nat.mul_assoc, Nat.mul_comm den]

/-- A mantissa is rounded to one of at most 53 bits, or the next one. -/
theorem roundQuotient_exponent_le (hden : 0 < den) :
    roundQuotient num (den * 2 ^ exponent (num / den)) ≤ 2 ^ 53 := by
  refine roundQuotient_le (Nat.mul_pos hden (Nat.two_pow_pos _)) ?_
  rw [← two_pow_add_mul]
  exact ((Nat.div_lt_iff_lt_mul hden).mp (lt_two_pow_exponent _)).le

/-- A quotient is rounded to a power of two at most. -/
theorem nearestQuotient_le (hden : 0 < den) :
    nearestQuotient num den ≤ 2 ^ (53 + exponent (num / den)) := by
  rw [nearestQuotient, Nat.pow_add]
  exact Nat.mul_le_mul_right _ (roundQuotient_exponent_le hden)

theorem le_nearestQuotient (hden : 0 < den) (h : 0 < exponent (num / den)) :
    2 ^ (52 + exponent (num / den)) ≤ nearestQuotient num den := by
  have hlow := two_pow_le_of_exponent_pos h
  rw [Nat.le_div_iff_mul_le hden, two_pow_add_mul] at hlow
  rw [nearestQuotient, Nat.pow_add]
  exact Nat.mul_le_mul_right _
    (le_roundQuotient (Nat.mul_pos hden (Nat.two_pow_pos _)) hlow)

/-- Rounding quotients keeps their order. -/
theorem nearestQuotient_mono (hden : 0 < den) {m : Nat} (h : m ≤ n) :
    nearestQuotient m den ≤ nearestQuotient n den := by
  rcases (exponent_mono (Nat.div_le_div_right (c := den) h)).eq_or_lt with heq | hlt
  · rw [nearestQuotient, nearestQuotient, heq]
    exact Nat.mul_le_mul_right _ (roundQuotient_mono h)
  · exact (nearestQuotient_le hden).trans ((Nat.pow_le_pow_right (by omega) (by omega)).trans
      (le_nearestQuotient hden (Nat.zero_lt_of_lt hlt)))

/-- What a quotient is rounded to is at most half of its last bit away. -/
theorem nearestQuotient_close (hden : 0 < den) (h : num / den < 2 ^ (53 + places)) :
    2 * (nearestQuotient num den * den) ≤ 2 * num + den * 2 ^ places ∧
      2 * num ≤ 2 * (nearestQuotient num den * den) + den * 2 ^ places := by
  have hplaces : exponent (num / den) ≤ places := by
    by_cases hpos : 0 < exponent (num / den)
    · have hlt : 52 + exponent (num / den) < 53 + places :=
        (Nat.pow_lt_pow_iff_right (by omega)).mp ((two_pow_le_of_exponent_pos hpos).trans_lt h)
      omega
    · omega
  have hbit : den * 2 ^ exponent (num / den) ≤ den * 2 ^ places :=
    Nat.mul_le_mul_left den (Nat.pow_le_pow_right (by omega) hplaces)
  have hclose := @roundQuotient_close num (den * 2 ^ exponent (num / den))
    (Nat.mul_pos hden (Nat.two_pow_pos _))
  rw [nearestQuotient, Nat.mul_assoc, Nat.mul_comm (2 ^ _) den]
  omega

end Binary64

/-! ## The interval around a number -/

namespace Shortest

/-- whether `num / den` lies in an interval -/
def Interval.Contains (range : Interval) (num den : Nat) : Prop :=
  if range.closed then
    (range.low <<< range.shift) * den ≤ num * 4 * Binary64.one ∧
      num * 4 * Binary64.one ≤ (range.high <<< range.shift) * den
  else
    (range.low <<< range.shift) * den < num * 4 * Binary64.one ∧
      num * 4 * Binary64.one < (range.high <<< range.shift) * den

end Shortest

namespace Binary64

open Shortest

variable {units num den n k places : Nat} {negative : Bool}

/-- what it means that `scaled / den` units lie in the interval around a number, in bits of its
mantissa -/
structure Near (units scaled den : Nat) : Prop where
  /-- at most half a bit below -/
  low : 2 * (mantissa units * (den * 2 ^ exponent units)) ≤ 2 * scaled + den * 2 ^ exponent units
  /-- at most half a bit above -/
  high : 2 * scaled ≤ 2 * (mantissa units * (den * 2 ^ exponent units)) + den * 2 ^ exponent units
  /-- less than that, if the mantissa is odd -/
  inside : mantissa units % 2 = 0 ∨
    2 * (mantissa units * (den * 2 ^ exponent units)) < 2 * scaled + den * 2 ^ exponent units ∧
      2 * scaled < 2 * (mantissa units * (den * 2 ^ exponent units)) + den * 2 ^ exponent units
  /-- at most a quarter below a power of two -/
  power : mantissa units = 2 ^ 52 → 0 < exponent units →
    4 * (mantissa units * (den * 2 ^ exponent units)) ≤ 4 * scaled + den * 2 ^ exponent units

theorem interval_eq (units : Nat) : interval units =
    { low := if mantissa units = 2 ^ 52 ∧ 0 < exponent units then 4 * mantissa units - 1
        else 4 * mantissa units - 2
      middle := 4 * mantissa units
      high := 4 * mantissa units + 2
      closed := mantissa units % 2 = 0
      shift := exponent units } := rfl

theorem near_of_contains (h : (interval units).Contains num den) :
    Near units (num * one) den := by
  have hscale (quarters : Nat) : quarters <<< exponent units * den =
      quarters * (den * 2 ^ exponent units) := by
    rw [Nat.shiftLeft_eq, Nat.mul_assoc, Nat.mul_comm den]
  have hnum : num * 4 * one = 4 * (num * one) := by rw [Nat.mul_comm num, Nat.mul_assoc]
  simp only [interval_eq, Interval.Contains, hscale, hnum, decide_eq_true_eq] at h
  constructor <;> generalize mantissa units = m at h ⊢ <;>
    generalize den * 2 ^ exponent units = bit at h ⊢ <;>
    generalize num * one = scaled at h ⊢ <;>
    split_ifs at h <;>
    simp only [Nat.sub_mul, Nat.add_mul, Nat.mul_assoc, Nat.one_mul] at h <;> omega

theorem mul_two_pow_succ (den places : Nat) : den * 2 ^ (places + 1) = 2 * (den * 2 ^ places) := by
  rw [Nat.pow_succ, ← Nat.mul_assoc, Nat.mul_comm _ 2]

namespace Near

variable {scaled : Nat}

/-- What is near a number but has a lower power of two lies less than a quarter of a bit below one,
and drops one bit less. -/
theorem below (h : Near units scaled den) (hden : 0 < den) (hpos : 0 < exponent units)
    (hbelow : scaled < 2 ^ 52 * (den * 2 ^ exponent units)) :
    mantissa units = 2 ^ 52 ∧ exponent (scaled / den) + 1 = exponent units := by
  have hmantissa : mantissa units = 2 ^ 52 := by
    -- half a bit below the next mantissa would not be below the least one
    refine Nat.le_antisymm (Nat.le_of_not_lt fun hlt => ?_) (le_mantissa hpos)
    have hnext : (2 ^ 52 + 1) * (den * 2 ^ exponent units) ≤
        mantissa units * (den * 2 ^ exponent units) := Nat.mul_le_mul_right _ hlt
    have hclose := h.low
    have hbit : 0 < den * 2 ^ exponent units := Nat.mul_pos hden (Nat.two_pow_pos _)
    rw [Nat.add_mul, Nat.one_mul] at hnext
    omega
  have hclose := h.power hmantissa hpos
  obtain ⟨places, hplaces⟩ := Nat.exists_eq_add_of_le' hpos
  rw [hmantissa, hplaces, mul_two_pow_succ] at hclose
  rw [hplaces, mul_two_pow_succ] at hbelow
  have hlow : 2 ^ (52 + places) ≤ scaled / den := by
    rw [Nat.le_div_iff_mul_le hden, two_pow_add_mul]
    omega
  have hhigh : scaled / den < 2 ^ (53 + places) := by
    rw [Nat.div_lt_iff_lt_mul hden, two_pow_add_mul]
    omega
  exact ⟨hmantissa, by rw [Binary64.exponent_eq hlow hhigh, hplaces]⟩

/-- Else it drops as many bits as the number. -/
theorem exponent_eq (h : Near units scaled den) (hden : 0 < den)
    (hlow : exponent units = 0 ∨ 2 ^ 52 * (den * 2 ^ exponent units) ≤ scaled) :
    exponent (scaled / den) = exponent units := by
  have hquotient : scaled / den < 2 ^ (53 + exponent units) := by
    have hclose := h.high
    have hbit : 0 < den * 2 ^ exponent units := Nat.mul_pos hden (Nat.two_pow_pos _)
    have hnext : (mantissa units + 1) * (den * 2 ^ exponent units) ≤
        2 ^ 53 * (den * 2 ^ exponent units) := Nat.mul_le_mul_right _ (mantissa_lt units)
    rw [Nat.add_mul, Nat.one_mul] at hnext
    rw [Nat.div_lt_iff_lt_mul hden, two_pow_add_mul]
    omega
  rcases hlow with hzero | hlow
  · rw [hzero] at hquotient ⊢
    exact exponent_eq_zero hquotient
  · refine Binary64.exponent_eq ?_ hquotient
    rwa [Nat.le_div_iff_mul_le hden, two_pow_add_mul]

/-- A quotient near a number is rounded to it: to its mantissa, or to twice its mantissa from below
a power of two. -/
theorem rounded (h : Near units scaled den) (hden : 0 < den) (hunits : Representable units) :
    nearestQuotient scaled den = units := by
  have hmul := mantissa_mul hunits
  rw [nearestQuotient]
  by_cases hbelow : 0 < exponent units ∧ scaled < 2 ^ 52 * (den * 2 ^ exponent units)
  · obtain ⟨hpos, hbelow⟩ := hbelow
    obtain ⟨hmantissa, hplaces⟩ := h.below hden hpos hbelow
    have hclose := h.power hmantissa hpos
    generalize exponent (scaled / den) = places at hplaces ⊢
    rw [hmantissa, ← hplaces, mul_two_pow_succ] at hclose
    rw [← hplaces, mul_two_pow_succ] at hbelow
    rw [hmantissa, ← hplaces, Nat.pow_succ 2 places] at hmul
    have hround : roundQuotient scaled (den * 2 ^ places) = 2 ^ 53 := by
      refine roundQuotient_eq (Nat.mul_pos hden (Nat.two_pow_pos _)) ?_ ?_ (.inl rfl) <;> omega
    rw [hround]
    omega
  · have hbit : 0 < den * 2 ^ exponent units := Nat.mul_pos hden (Nat.two_pow_pos _)
    rw [h.exponent_eq hden (by omega), roundQuotient_eq hbit h.low h.high h.inside, hmul]

end Near

/-- **Reading back.** A quotient in the interval around a floating-point number is rounded to it. -/
theorem ofRatio_of_contains (h : (interval units).Contains num den) (hden : 0 < den)
    (hunits : Representable units) : ofRatio negative num den = .finite negative units := by
  rw [ofRatio_eq, (near_of_contains h).rounded hden hunits]
  exact if_pos hunits.1

/-! ## Whole numbers -/

/-- a whole number rounded to 53 bits -/
def nearestWhole (n : Nat) : Nat := roundQuotient n (2 ^ exponent n) * 2 ^ exponent n

theorem nearestQuotient_one (n : Nat) : nearestQuotient n 1 = nearestWhole n := by
  rw [nearestQuotient, Nat.div_one, Nat.one_mul, nearestWhole]

/-- A mantissa of at most 53 bits, or the next one, is not rounded, wherever it stands. -/
theorem nearestWhole_shiftLeft (h : n ≤ 2 ^ 53) (places : Nat) :
    nearestWhole (n <<< places) = n <<< places := by
  obtain ⟨k, hk⟩ := exists_mul_two_pow h places
  generalize n <<< places = whole at hk ⊢
  have hround : roundQuotient whole (2 ^ exponent whole) = k :=
    (congrArg (roundQuotient · _) hk).trans (roundQuotient_mul k (Nat.two_pow_pos _))
  rw [nearestWhole, hround, ← hk]

theorem nearestWhole_of_le (h : n ≤ greatestExact) : nearestWhole n = n :=
  nearestWhole_shiftLeft h 0

theorem exists_nearestWhole_eq (n : Nat) :
    ∃ mantissa ≤ 2 ^ 53, nearestWhole n = mantissa <<< exponent n := by
  have hle := @roundQuotient_exponent_le n 1 Nat.one_pos
  rw [Nat.div_one, Nat.one_mul] at hle
  exact ⟨_, hle, (Nat.shiftLeft_eq ..).symm⟩

/-- What is rounded is not rounded again. -/
theorem nearestWhole_idem (n : Nat) : nearestWhole (nearestWhole n) = nearestWhole n := by
  obtain ⟨mantissa, hle, hshift⟩ := exists_nearestWhole_eq n
  rw [hshift, nearestWhole_shiftLeft hle]

/-- A whole number is rounded to a power of two at most. -/
theorem nearestWhole_le (n : Nat) : nearestWhole n ≤ 2 ^ (53 + exponent n) := by
  have hle := @nearestQuotient_le n 1 Nat.one_pos
  rwa [nearestQuotient_one, Nat.div_one] at hle

/-- What a whole number is rounded to is at most half of its last bit away. -/
theorem nearestWhole_close (h : n < 2 ^ (53 + places)) :
    2 * nearestWhole n ≤ 2 * n + 2 ^ places ∧ 2 * n ≤ 2 * nearestWhole n + 2 ^ places := by
  rw [← Nat.div_one n] at h
  have hclose := nearestQuotient_close Nat.one_pos h
  rwa [nearestQuotient_one, Nat.mul_one, Nat.one_mul] at hclose

/-- Rounding whole numbers keeps their order. -/
theorem nearestWhole_mono : Monotone nearestWhole := by
  intro m n h
  rw [← nearestQuotient_one, ← nearestQuotient_one]
  exact nearestQuotient_mono Nat.one_pos h

/-- the bound of the integers that JSON knows -/
def integerBound : Nat := 2 ^ 64

theorem nearestWhole_lt_bound (h : n ≤ integerBound) : nearestWhole n * one < bound := by
  have hexponent : exponent n ≤ 12 := exponent_mono h
  have hle : nearestWhole n ≤ 2 ^ 65 :=
    (nearestWhole_le n).trans (Nat.pow_le_pow_right (by omega) (by omega))
  exact Nat.lt_of_le_of_lt (Nat.mul_le_mul_right one hle) (by decide +kernel)

theorem exponent_shiftLeft (h : 52 ≤ Nat.log2 n) (places : Nat) :
    exponent (n <<< places) = exponent n + places := by
  have hne : n ≠ 0 := by
    rintro rfl
    simp at h
  rw [Nat.shiftLeft_eq, exponent, log2_mul_two_pow hne, exponent]
  omega

/-- A number of at least 53 bits is rounded alike, wherever it stands. -/
theorem nearestWhole_shiftLeft_of_le (h : 52 ≤ Nat.log2 n) (places : Nat) :
    nearestWhole (n <<< places) = nearestWhole n <<< places := by
  rw [nearestWhole, exponent_shiftLeft h, Nat.shiftLeft_eq, Nat.pow_add,
    roundQuotient_mul_right (Nat.two_pow_pos places), Nat.shiftLeft_eq, nearestWhole, Nat.mul_assoc]

/-- A whole number is rounded like its count of units. -/
theorem nearestWhole_mul_one (n : Nat) : nearestWhole (n * one) = nearestWhole n * one := by
  rw [← shiftLeft_eq_mul_one, ← shiftLeft_eq_mul_one]
  by_cases hsmall : n ≤ greatestExact
  · rw [nearestWhole_of_le hsmall, nearestWhole_shiftLeft hsmall]
  · have hle : 2 ^ 52 ≤ n :=
      (Nat.pow_le_pow_right (by omega) (by omega)).trans (Nat.le_of_not_le hsmall)
    have hne : n ≠ 0 := Nat.ne_of_gt ((Nat.two_pow_pos _).trans_le hle)
    exact nearestWhole_shiftLeft_of_le ((Nat.le_log2 hne).mpr hle) 1074

/-- A whole number is rounded to 53 bits. -/
theorem ofRatio_natural (h : n ≤ integerBound) :
    ofRatio negative n 1 = .finite negative (nearestWhole n * one) := by
  rw [ofRatio_eq, nearestQuotient_one, nearestWhole_mul_one]
  exact if_pos (nearestWhole_lt_bound h)

/-! ## Order -/

theorem exists_eq_finite {x : Binary64} (h : x.isFinite) :
    ∃ negative units, x = .finite negative units := by
  cases x with
  | finite negative units => exact ⟨negative, units, rfl⟩
  | infinite negative => cases h
  | undefined => cases h

theorem compare?_ne_gt_iff {n m : Bool} {a b : Nat} :
    (finite n a).compare? (finite m b) ≠ some .gt ↔ signed n a ≤ signed m b := by
  rw [compare?, Ne, Option.some.injEq, compare_gt_iff_gt, not_lt]

/-- What lies between finite numbers is finite. -/
theorem exists_between {n m : Bool} {a b : Nat} {x : Binary64} (hdefined : x ≠ .undefined)
    (hlow : (finite n a).compare? x ≠ some .gt) (hhigh : x.compare? (finite m b) ≠ some .gt) :
    ∃ k w, x = .finite k w ∧ signed n a ≤ signed k w ∧ signed k w ≤ signed m b := by
  cases x with
  | finite k w => exact ⟨k, w, rfl, compare?_ne_gt_iff.mp hlow, compare?_ne_gt_iff.mp hhigh⟩
  | infinite k => cases k <;> simp [compare?] at hlow hhigh
  | undefined => exact absurd rfl hdefined

/-- A magnitude between two others is at most one of them. -/
theorem le_of_between {n m k : Bool} {a b w : Nat} (hlow : signed n a ≤ signed k w)
    (hhigh : signed k w ≤ signed m b) : w ≤ a ∨ w ≤ b := by
  cases n <;> cases m <;> cases k <;>
    simp only [signed, if_true, Bool.false_eq_true, if_false] at hlow hhigh <;> omega

/-- What keeps the order of magnitudes keeps the order of signed ones. -/
theorem signed_mono {change : Nat → Nat} (hchange : Monotone change) (hzero : change 0 = 0)
    {n m : Bool} {a b : Nat} (h : signed n a ≤ signed m b) :
    signed n (change a) ≤ signed m (change b) := by
  cases n <;> cases m <;> simp only [signed, if_true, Bool.false_eq_true, if_false] at h ⊢
  · have hmono : change a ≤ change b := hchange (by omega)
    omega
  · obtain ⟨rfl, rfl⟩ : a = 0 ∧ b = 0 := by omega
    omega
  · omega
  · have hmono : change b ≤ change a := hchange (by omega)
    omega

/-! ## Integers -/

/-- an integer rounded to 53 bits -/
def nearest (n : Int) : Int := signed (n < 0) (nearestWhole n.natAbs)

theorem ofInt_eq {n : Int} (h : n.natAbs ≤ integerBound) :
    ofInt n = .finite (n < 0) (nearestWhole n.natAbs * one) :=
  ofRatio_natural h

theorem natAbs_signed (negative : Bool) (n : Nat) : (signed negative n).natAbs = n := by
  cases negative <;> simp [signed]

theorem signed_natAbs (n : Int) : signed (n < 0) n.natAbs = n := by
  by_cases h : n < 0
  · rw [decide_eq_true h, signed, if_pos rfl]
    omega
  · rw [decide_eq_false h, signed, if_neg Bool.false_ne_true]
    omega

theorem signed_mul (negative : Bool) (n k : Nat) :
    signed negative (n * k) = signed negative n * k := by
  cases negative with
  | false => exact Int.natCast_mul n k
  | true =>
    simp only [signed, if_true, Int.natCast_mul]
    exact (Int.neg_mul ..).symm

theorem natAbs_nearest (n : Int) : (nearest n).natAbs = nearestWhole n.natAbs :=
  natAbs_signed ..

/-- The sign does not matter. -/
theorem nearest_eq_self_iff {n : Int} : nearest n = n ↔ nearestWhole n.natAbs = n.natAbs := by
  constructor
  · intro h
    rw [← natAbs_nearest, h]
  · intro h
    rw [nearest, h, signed_natAbs]

theorem nearest_of_le {n : Int} (h : n.natAbs ≤ greatestExact) : nearest n = n :=
  nearest_eq_self_iff.mpr (nearestWhole_of_le h)

theorem nearest_idem (n : Int) : nearest (nearest n) = nearest n :=
  nearest_eq_self_iff.mpr (by rw [natAbs_nearest, nearestWhole_idem])

/-- Rounding integers keeps their order. -/
theorem nearest_mono {a b : Int} (h : a ≤ b) : nearest a ≤ nearest b := by
  rw [← signed_natAbs a, ← signed_natAbs b] at h
  exact signed_mono nearestWhole_mono (nearestWhole_of_le (Nat.zero_le _)) h

/-- Integers that are rounded to different numbers are ordered as these. -/
theorem compare_nearest {a b : Int} (h : nearest a ≠ nearest b) :
    compare (nearest a) (nearest b) = compare a b := by
  rcases lt_trichotomy a b with hlt | rfl | hlt
  · have hnearest := (nearest_mono hlt.le).lt_of_ne h
    rw [compare_lt_iff_lt.mpr hlt, compare_lt_iff_lt.mpr hnearest]
  · exact absurd rfl h
  · have hnearest := (nearest_mono hlt.le).lt_of_ne h.symm
    rw [compare_gt_iff_gt.mpr hlt, compare_gt_iff_gt.mpr hnearest]

theorem compare_mul_right {a b : Int} {c : Nat} (hc : 0 < c) :
    compare (a * c) (b * c) = compare a b := by
  have hpos : (0 : Int) < c := Int.natCast_pos.mpr hc
  rw [Int.compare_eq_ite_lt, Int.compare_eq_ite_lt]
  simp only [Int.mul_lt_mul_right hpos]

/-- The order of two integers as floating-point numbers is that of what they are rounded to. -/
theorem compare?_ofInt {a b : Int} (ha : a.natAbs ≤ integerBound) (hb : b.natAbs ≤ integerBound) :
    (ofInt a).compare? (ofInt b) = some (compare (nearest a) (nearest b)) := by
  rw [ofInt_eq ha, ofInt_eq hb, compare?, signed_mul, signed_mul, compare_mul_right one_pos]
  rfl

end Binary64

end TableRecipe
