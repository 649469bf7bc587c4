import Mathlib.Tactic.LinearCombination
import Mathlib.Tactic.Ring
import TableRecipe.Proofs.Number.Rounding

/-!
# Two decimal places

A number is brought to two places in three steps, each of which rounds: times a hundred, to the
nearest integer, divided by a hundred. The steps keep the order of numbers, and a number that has
two places already keeps them, unless it is so great that its own last bit stands for more.

* `Binary64.hundredths` — the hundredths that a magnitude is rounded to;
* `Binary64.toPlaces_eq` — the three steps give the number nearest to so many hundredths;
* `Binary64.hundredths_mono`, `Binary64.roundedToPlaces_mono` — they keep the order;
* `Binary64.hundredths_eq` — a quotient that is so many hundredths is rounded to them.
-/

namespace TableRecipe.Binary64

variable {units num den k : Nat} {negative : Bool}

/-- how many hundredths a count of units is rounded to -/
def hundredths (units : Nat) : Nat := (2 * nearestWhole (100 * units) + one) / (2 * one)

theorem hundredths_mono : Monotone hundredths := fun _ _ h =>
  Nat.div_le_div_right (Nat.add_le_add_right
    (Nat.mul_le_mul_left 2 (nearestWhole_mono (Nat.mul_le_mul_left 100 h))) one)

theorem two_pow_mul_two_pow {places more : Nat} (h : places + more = 1074) :
    2 ^ places * 2 ^ more = one := by
  rw [one_eq, Nat.shiftLeft_eq, ← h, Nat.pow_add, Nat.one_mul]

/-- What is less than a half away from a whole number is rounded to it. -/
theorem half_div_of_close {whole : Nat} (hlow : 2 * (k * one) ≤ 2 * whole + one)
    (hhigh : 2 * whole < 2 * (k * one) + one) : (2 * whole + one) / (2 * one) = k := by
  generalize one = unit at hlow hhigh ⊢
  refine Nat.div_eq_of_lt_le ?_ ?_
  · rwa [Nat.mul_left_comm]
  · rw [Nat.mul_left_comm, Nat.add_mul k]
    omega

theorem half_div (k : Nat) : (2 * (k * one) + one) / (2 * one) = k :=
  half_div_of_close (Nat.le_add_right ..) (Nat.lt_add_of_pos_right one_pos)

theorem hundredths_zero : hundredths 0 = 0 := by
  rw [hundredths, Nat.mul_zero, nearestWhole_of_le (Nat.zero_le _)]
  exact (congrArg (fun n => (2 * n + one) / (2 * one)) (Nat.zero_mul one).symm).trans (half_div 0)

/-- The hundredths are whole numbers that need no more than 53 bits. -/
theorem nearestWhole_hundredths (h : nearestWhole (100 * units) < bound) :
    nearestWhole (hundredths units * one) = hundredths units * one ∧
      hundredths units * one < bound := by
  rw [hundredths]
  obtain ⟨mantissa, hmantissa, hshift⟩ := exists_nearestWhole_eq (100 * units)
  have hidem := nearestWhole_idem (100 * units)
  generalize nearestWhole (100 * units) = whole at h hshift hidem ⊢
  by_cases hplaces : 1074 ≤ exponent (100 * units)
  · -- no bit stands for less than one
    obtain ⟨more, hmore⟩ := Nat.exists_eq_add_of_le' hplaces
    rw [hmore, Nat.shiftLeft_add, shiftLeft_eq_mul_one] at hshift
    generalize mantissa <<< more = k at hshift
    rw [hshift] at h hidem ⊢
    rw [half_div]
    exact ⟨hidem, h⟩
  · have hwhole : 2 * whole ≤ 2 ^ 53 * one := by
      have hpow : 2 ^ (exponent (100 * units) + 1) ≤ one := by
        obtain ⟨more, hmore⟩ := Nat.exists_eq_add_of_le (Nat.lt_of_not_le hplaces)
        rw [← two_pow_mul_two_pow hmore.symm]
        exact Nat.le_mul_of_pos_right _ (Nat.two_pow_pos more)
      rw [hshift, Nat.shiftLeft_eq, Nat.mul_left_comm, ← Nat.pow_succ']
      exact Nat.mul_le_mul hmantissa hpow
    have hle : (2 * whole + one) / (2 * one) ≤ 2 ^ 53 := by
      have hone := one_pos
      refine Nat.div_le_of_le_mul ?_
      rw [Nat.mul_right_comm, Nat.mul_comm 2]
      omega
    generalize (2 * whole + one) / (2 * one) = k at hle ⊢
    exact ⟨by rw [nearestWhole_mul_one, nearestWhole_of_le hle], mul_one_lt_bound hle⟩

/-- a count of units brought to two places -/
def roundedToPlaces (units : Nat) : Nat := nearestQuotient (hundredths units * one) 100

theorem roundedToPlaces_mono : Monotone roundedToPlaces := fun _ _ h =>
  nearestQuotient_mono (by omega) (Nat.mul_le_mul_right one (hundredths_mono h))

theorem roundedToPlaces_zero : roundedToPlaces 0 = 0 := by
  rw [roundedToPlaces, hundredths_zero, Nat.zero_mul]
  rfl

theorem roundedToPlaces_lt (h : nearestWhole (100 * units) < bound) :
    roundedToPlaces units < bound := by
  obtain ⟨hwhole, hbound⟩ := nearestWhole_hundredths h
  refine lt_of_le_of_lt ?_ hbound
  have hmono : nearestQuotient (hundredths units * one) 100 ≤
      nearestQuotient (hundredths units * one * 100) (1 * 100) :=
    nearestQuotient_mono (by omega) (Nat.le_mul_of_pos_right _ (by omega))
  rwa [nearestQuotient_mul_right (by omega), nearestQuotient_one, hwhole] at hmono

theorem ofInt_hundred : ofInt 100 = .finite false (100 * one) :=
  @ofRatio_whole 100 false (by decide)

theorem ofRatio_hundredths (h : nearestWhole (100 * units) < bound) :
    ofRatio negative (hundredths units) 100 = .finite negative (roundedToPlaces units) := by
  rw [ofRatio_eq]
  exact if_pos (roundedToPlaces_lt h)

/-- The product by a hundred is rounded once. -/
theorem times_hundred (negative : Bool) (units : Nat) :
    (finite negative units).times (ofInt 100) =
      if nearestWhole (100 * units) < bound then .finite negative (nearestWhole (100 * units))
      else .infinite negative := by
  have hproduct : nearestQuotient (units * (100 * one) * one) (one * one) =
      nearestWhole (100 * units) := by
    have hscale : units * (100 * one) * one = 100 * units * (one * one) := by
      simp only [Nat.mul_left_comm units, Nat.mul_assoc]
    have hfactor : nearestQuotient (100 * units * (one * one)) (1 * (one * one)) =
        nearestQuotient (100 * units) 1 := nearestQuotient_mul_right (Nat.mul_pos one_pos one_pos)
    rwa [Nat.one_mul, nearestQuotient_one, ← hscale] at hfactor
  rw [ofInt_hundred, times, Bool.bne_false, ofRatio_eq, hproduct]

/-- **Two places.** The three steps give the number nearest to so many hundredths. -/
theorem toPlaces_eq (h : nearestWhole (100 * units) < bound) :
    (((finite negative units).times (ofInt 100)).roundHalfAway.dividedBy (ofInt 100)) =
      ofRatio negative (hundredths units) 100 := by
  obtain ⟨hwhole, hbound⟩ := nearestWhole_hundredths h
  have hround : (finite negative (nearestWhole (100 * units))).roundHalfAway =
      .finite negative (hundredths units * one) := by
    rw [roundHalfAway, ← hundredths, ofRatio_eq, nearestQuotient_one, hwhole, if_pos hbound]
  rw [times_hundred, if_pos h, hround, ofInt_hundred, dividedBy, Bool.bne_false, ofRatio_eq,
    ofRatio_eq, nearestQuotient_mul_right one_pos]

/-- A quotient of at most `2 ^ 44` is read to a number that is off by at most a 512th of one. -/
theorem nearestQuotient_close_of_small {places : Nat} (hplaces : 8 + places = 1074) (hden : 0 < den)
    (hsmall : num ≤ den * 2 ^ 44) :
    2 * (nearestQuotient (num * one) den * den) ≤ 2 * (num * one) + den * 2 ^ places ∧
      2 * (num * one) ≤ 2 * (nearestQuotient (num * one) den * den) + den * 2 ^ places := by
  refine nearestQuotient_close hden ((Nat.div_lt_iff_lt_mul hden).mpr ?_)
  calc num * one ≤ den * 2 ^ 44 * one := Nat.mul_le_mul_right one hsmall
    _ = 2 ^ (52 + places) * den := by rw [← two_pow_mul_two_pow hplaces, Nat.pow_add]; ring
    _ < 2 ^ (53 + places) * den :=
      Nat.mul_lt_mul_of_pos_right (Nat.pow_lt_pow_right (by omega) (by omega)) hden

/-- The hundredfold of such a number is off by a hundred times as much. -/
theorem hundredfold_close {bit : Nat} (hden : 0 < den) (hk : num * 100 = k * den)
    (hlow : 2 * (units * den) ≤ 2 * (num * one) + den * bit)
    (hhigh : 2 * (num * one) ≤ 2 * (units * den) + den * bit) :
    200 * units ≤ 2 * (k * one) + 100 * bit ∧ 2 * (k * one) ≤ 200 * units + 100 * bit := by
  have hscale : 100 * (num * one) = k * one * den := by rw [Nat.mul_right_comm, ← hk]; ring
  constructor <;> refine Nat.le_of_mul_le_mul_right ?_ hden
  · calc 200 * units * den = 100 * (2 * (units * den)) := by ring
      _ ≤ 100 * (2 * (num * one) + den * bit) := Nat.mul_le_mul_left 100 hlow
      _ = (2 * (k * one) + 100 * bit) * den := by linear_combination 2 * hscale
  · calc 2 * (k * one) * den = 100 * (2 * (num * one)) := by rw [Nat.mul_assoc, ← hscale]; ring
      _ ≤ 100 * (2 * (units * den) + den * bit) := Nat.mul_le_mul_left 100 hhigh
      _ = (200 * units + 100 * bit) * den := by ring

/-- **Places are kept.** A quotient that is so many hundredths is rounded to them, if its last bit
stands for little enough. -/
theorem hundredths_eq (hden : 0 < den) (hk : num * 100 = k * den) (hsmall : num ≤ den * 2 ^ 44) :
    hundredths (nearestQuotient (num * one) den) = k := by
  obtain ⟨places, hplaces⟩ : ∃ places, 8 + places = 1074 := ⟨1066, rfl⟩
  have hone : 256 * 2 ^ places = one := two_pow_mul_two_pow hplaces
  obtain ⟨hlow, hhigh⟩ := nearestQuotient_close_of_small hplaces hden hsmall
  generalize nearestQuotient (num * one) den = units at hlow hhigh ⊢
  have hfold := hundredfold_close hden hk hlow hhigh
  have hmul : 2 * (k * (256 * 2 ^ places)) = 512 * (k * 2 ^ places) := by ring
  rw [← hone, hmul] at hfold
  have hle : k * 2 ^ places ≤ 100 * 2 ^ 44 * 2 ^ places := by
    refine Nat.mul_le_mul_right _ (Nat.le_of_mul_le_mul_right ?_ hden)
    calc k * den = num * 100 := hk.symm
      _ ≤ den * 2 ^ 44 * 100 := Nat.mul_le_mul_right 100 hsmall
      _ = 100 * 2 ^ 44 * den := by ring
  have hpos : 0 < 2 ^ places := Nat.two_pow_pos places
  -- rounding the hundredfold is off by at most an eighth of one more
  have hproduct : 2 * nearestWhole (100 * units) ≤ 2 * (100 * units) + 2 ^ (6 + places) ∧
      2 * (100 * units) ≤ 2 * nearestWhole (100 * units) + 2 ^ (6 + places) := by
    refine nearestWhole_close ?_
    rw [Nat.pow_add, Nat.pow_add 2 6]
    omega
  rw [Nat.pow_add] at hproduct
  rw [hundredths]
  refine half_div_of_close ?_ ?_ <;> rw [← hone] <;> omega

/-- A magnitude that is not too great has its hundredfold among the finite numbers. -/
theorem nearestWhole_hundred_lt (h : units ≤ 2 ^ 44 * one) :
    nearestWhole (100 * units) < bound := by
  have hle : 100 * units ≤ 2 ^ 51 * one :=
    calc 100 * units ≤ 100 * (2 ^ 44 * one) := Nat.mul_le_mul_left 100 h
      _ = 100 * 2 ^ 44 * one := (Nat.mul_assoc ..).symm
      _ ≤ 2 ^ 51 * one := Nat.mul_le_mul_right one (by decide)
  have hmono := nearestWhole_mono hle
  rw [nearestWhole_mul_one, nearestWhole_of_le (n := 2 ^ 51) (by decide)] at hmono
  exact hmono.trans_lt (mul_one_lt_bound (by decide))

theorem nearestQuotient_le_of_small (hden : 0 < den) (hsmall : num ≤ den * 2 ^ 44) :
    nearestQuotient (num * one) den ≤ 2 ^ 44 * one := by
  have hle : num * one ≤ 2 ^ 44 * one * den := by
    rw [Nat.mul_right_comm, Nat.mul_comm (2 ^ 44)]
    exact Nat.mul_le_mul_right one hsmall
  have hmono : nearestQuotient (num * one) den ≤
      nearestQuotient (2 ^ 44 * one * den) (1 * den) := by
    rw [Nat.one_mul]
    exact nearestQuotient_mono hden hle
  rwa [nearestQuotient_mul_right hden, nearestQuotient_one, nearestWhole_mul_one,
    nearestWhole_of_le (by decide)] at hmono

end TableRecipe.Binary64
