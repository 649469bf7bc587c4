import Mathlib.Algebra.Order.Ring.Nat
import Mathlib.Tactic.Ring
import TableRecipe.Proofs.Number.Rounding

/-!
# Shortest digits

The search for the shortest digits of a floating-point number always ends with digits, and these
denote a number in the interval around it.

* `Shortest.powerAtMost_pointOf` — the estimate of the decimal point is not too high;
* `Shortest.exists_onGrid` — a grid of 18 digits has a point in the interval;
* `Shortest.digits_eq` — the digits are those of a point in the interval.
-/

namespace TableRecipe.Shortest

open Binary64 (one Representable mantissa exponent interval_eq)

variable {range : Interval} {units d k count fuel : Nat} {place point : Int}

/-! ## Powers of ten -/

theorem power_pos (place : Int) : 0 < (power place).1 ∧ 0 < (power place).2 := by
  rw [power]
  split
  · exact ⟨Nat.pow_pos (by omega), Nat.one_pos⟩
  · exact ⟨Nat.one_pos, Nat.pow_pos (by omega)⟩

/-- Each place more is a factor of ten. -/
theorem power_add (place : Int) (k : Nat) :
    (power (place + k)).1 * (power place).2 =
      10 ^ k * (power place).1 * (power (place + k)).2 := by
  have hpow {m n : Nat} (h : m = n) : 10 ^ m = 10 ^ n := h ▸ rfl
  simp only [power, Nat.pow_eq]
  split_ifs
  · rw [Nat.mul_one, Nat.mul_one, ← Nat.pow_add]
    exact hpow (by omega)
  · rw [Nat.mul_one, Nat.mul_one, ← Nat.pow_add]
    exact hpow (by omega)
  · omega
  · rw [Nat.mul_one, Nat.one_mul, ← Nat.pow_add]
    exact hpow (by omega)

theorem powerAtMost_iff :
    powerAtMost place units ↔ (power place).1 * one ≤ units * (power place).2 := by
  simp [powerAtMost]

/-- A power of ten that is at most a number is so many times a lower one. -/
theorem powerAtMost_add (h : powerAtMost (place + k) units) :
    10 ^ k * ((power place).1 * one) ≤ units * (power place).2 := by
  rw [powerAtMost_iff] at h
  refine Nat.le_of_mul_le_mul_right ?_ (power_pos (place + k)).2
  calc 10 ^ k * ((power place).1 * one) * (power (place + k)).2
      = (power (place + k)).1 * one * (power place).2 := by
        rw [Nat.mul_right_comm _ one, power_add]
        ring
    _ ≤ units * (power (place + k)).2 * (power place).2 := Nat.mul_le_mul_right _ h
    _ = units * (power place).2 * (power (place + k)).2 := Nat.mul_right_comm ..

/-- `10 ^ 59` is less than `2 ^ 196`, and `196 / 59` close enough to the logarithm of ten. -/
theorem ten_pow_le {tens bits : Nat} (h : 196 * tens ≤ 59 * bits) : 10 ^ tens ≤ 2 ^ bits := by
  rw [← Nat.pow_le_pow_iff_left (show 59 ≠ 0 by omega), ← Nat.pow_mul, ← Nat.pow_mul]
  calc 10 ^ (tens * 59) = (10 ^ 59) ^ tens := by rw [Nat.mul_comm, Nat.pow_mul]
    _ ≤ (2 ^ 196) ^ tens := Nat.pow_le_pow_left (by decide) tens
    _ = 2 ^ (196 * tens) := (Nat.pow_mul ..).symm
    _ ≤ 2 ^ (bits * 59) := Nat.pow_le_pow_right (by omega) (by omega)

/-- `2 ^ 93` is less than `10 ^ 28`, and `28 / 93` close enough to the logarithm of two. -/
theorem two_pow_le {tens bits : Nat} (h : 28 * bits ≤ 93 * tens) : 2 ^ bits ≤ 10 ^ tens := by
  rw [← Nat.pow_le_pow_iff_left (show 93 ≠ 0 by omega), ← Nat.pow_mul, ← Nat.pow_mul]
  calc 2 ^ (bits * 93) = (2 ^ 93) ^ bits := by rw [Nat.mul_comm, Nat.pow_mul]
    _ ≤ (10 ^ 28) ^ bits := Nat.pow_le_pow_left (by decide) bits
    _ = 10 ^ (28 * bits) := (Nat.pow_mul ..).symm
    _ ≤ 10 ^ (tens * 93) := Nat.pow_le_pow_right (by omega) (by omega)

theorem one_eq_two_pow {places : Nat} (h : places = 1074) : one = 2 ^ places := by
  rw [Binary64.one_eq, ← h, Nat.one_shiftLeft]

/-- The estimate of the decimal point is at most two places too high. -/
theorem powerAtMost_estimate {bits : Nat} (hbits : bits < 2098) :
    powerAtMost (((bits : Int) - 1074) * 30103 / 100000 - 2) (2 ^ bits) := by
  obtain ⟨places, hplaces⟩ : ∃ places, places = 1074 := ⟨_, rfl⟩
  rw [powerAtMost_iff, power, one_eq_two_pow hplaces]
  split
  · -- a number above one
    obtain ⟨more, rfl⟩ := Nat.exists_eq_add_of_le' (show places ≤ bits by omega)
    rw [Nat.mul_one, Nat.pow_add]
    exact Nat.mul_le_mul_right _ (ten_pow_le (by omega))
  · rw [Nat.one_mul]
    by_cases hle : places ≤ bits
    · exact (Nat.pow_le_pow_right (by omega) hle).trans
        (Nat.le_mul_of_pos_right _ (Nat.pow_pos (by omega)))
    · obtain ⟨less, rfl⟩ := Nat.exists_eq_add_of_le (show bits ≤ places by omega)
      rw [Nat.pow_add]
      exact Nat.mul_le_mul_left _ (two_pow_le (by omega))

theorem powerAtMost_mono {m n : Nat} (h : m ≤ n) (hm : powerAtMost place m) : powerAtMost place n :=
  powerAtMost_iff.mpr ((powerAtMost_iff.mp hm).trans (Nat.mul_le_mul_right _ h))

theorem log2_lt_of_lt_bound (hpos : 0 < units) (h : units < Binary64.bound) :
    Nat.log2 units < 2098 := by
  have hbound : Binary64.bound = 1 <<< 2098 := by decide +kernel
  rw [hbound, Nat.one_shiftLeft] at h
  exact (Nat.log2_lt hpos.ne').mpr h

/-- The decimal point is not too high. -/
theorem powerAtMost_pointOf (hpos : 0 < units) (hbound : units < Binary64.bound) :
    powerAtMost (pointOf units - 1) units := by
  have hestimate : powerAtMost (((Nat.log2 units : Int) - 1074) * 30103 / 100000 - 2) units :=
    powerAtMost_mono (Nat.log2_self_le hpos.ne')
      (powerAtMost_estimate (log2_lt_of_lt_bound hpos hbound))
  have hrefused {lower place : Int} (h : ¬powerAtMost lower units = false)
      (hplace : place - 1 = lower) : powerAtMost (place - 1) units := by
    rw [hplace]
    exact Bool.eq_true_of_not_eq_false h
  rw [pointOf]
  generalize ((Nat.log2 units : Int) - 1074) * 30103 / 100000 = estimate at hestimate ⊢
  simp only [Bool.not_eq_true']
  -- the place below the result is the one that the branch before was refused for
  by_cases h₀ : powerAtMost (estimate - 1) units = false
  · rw [if_pos h₀]
    rw [show estimate - 1 - 1 = estimate - 2 by omega]
    exact hestimate
  by_cases h₁ : powerAtMost estimate units = false
  · rw [if_neg h₀, if_pos h₁]
    exact hrefused h₀ rfl
  by_cases h₂ : powerAtMost (estimate + 1) units = false
  · rw [if_neg h₀, if_neg h₁, if_pos h₂]
    exact hrefused h₁ (by omega)
  rw [if_neg h₀, if_neg h₁, if_neg h₂]
  split
  · exact hrefused h₂ (by omega)
  · next h₃ => exact hrefused h₃ (by omega)

/-! ## Grids -/

/-- the grid point below the middle of an interval, or the middle itself -/
def Interval.below (range : Interval) (place : Int) : Nat :=
  (range.middle <<< range.shift) * (power place).2 / ((power place).1 * 4 * one)

/-- A point that is found on a grid is one of the two around the middle and lies in the interval;
if none is found, neither does. -/
theorem onGrid_cases (range : Interval) (place : Int) :
    (∃ d, onGrid range place = some d ∧ range.below place ≤ d ∧
      range.Contains (d * (power place).1) (power place).2) ∨
    onGrid range place = none ∧
      ¬range.Contains ((range.below place + 1) * (power place).1) (power place).2 := by
  have hinside (d : Nat) :
      (if range.closed then
        decide ((range.low <<< range.shift) * (power place).2 ≤ d * ((power place).1 * 4 * one)) &&
        decide (d * ((power place).1 * 4 * one) ≤ (range.high <<< range.shift) * (power place).2)
      else
        decide ((range.low <<< range.shift) * (power place).2 < d * ((power place).1 * 4 * one)) &&
        decide (d * ((power place).1 * 4 * one) < (range.high <<< range.shift) * (power place).2))
      = true ↔ range.Contains (d * (power place).1) (power place).2 := by
    simp only [Interval.Contains, Nat.mul_assoc]
    split <;> simp
  have hbelow : (range.middle <<< range.shift) * (power place).2 / ((power place).1 * 4 * one) =
      range.below place := rfl
  simp only [onGrid, hbelow]
  split
  · next hfirst hsecond =>
    rw [hinside] at hfirst hsecond
    split_ifs
    · exact .inl ⟨_, rfl, Nat.le_refl _, hfirst⟩
    · exact .inl ⟨_, rfl, Nat.le_succ _, hsecond⟩
    · exact .inl ⟨_, rfl, Nat.le_refl _, hfirst⟩
    · exact .inl ⟨_, rfl, Nat.le_succ _, hsecond⟩
  · next hfirst _ => exact .inl ⟨_, rfl, Nat.le_refl _, (hinside _).mp hfirst⟩
  · next _ hsecond => exact .inl ⟨_, rfl, Nat.le_succ _, (hinside _).mp hsecond⟩
  · next _ hsecond =>
    refine .inr ⟨rfl, fun h => ?_⟩
    rw [(hinside _).mpr h] at hsecond
    cases hsecond

/-- Where a grid is finer than a quarter of a mantissa bit, its point after the middle is closer to
the middle than that. -/
theorem fine_bounds {middle bit step : Nat} (hstep : 0 < step)
    (hmiddle : middle ≤ 2 ^ 53 * bit) (hfine : 10 ^ 17 * step ≤ middle) :
    0 < 4 * middle / (4 * step) ∧ 4 * middle < (4 * middle / (4 * step) + 1) * (4 * step) ∧
      (4 * middle / (4 * step) + 1) * (4 * step) < 4 * middle + bit := by
  have hquotient := Nat.div_add_mod' (4 * middle) (4 * step)
  have hrest := Nat.mod_lt (4 * middle) (show 0 < 4 * step by omega)
  rw [Nat.add_mul, Nat.one_mul]
  refine ⟨Nat.div_pos (by omega) (by omega), ?_, ?_⟩ <;> omega

/-- A grid of 18 digits has a point in the interval. -/
theorem exists_onGrid (hunits : Representable units)
    (h : 10 ^ 17 * ((power place).1 * one) ≤ units * (power place).2) :
    ∃ d ≠ 0, onGrid (interval units) place = some d ∧
      (interval units).Contains (d * (power place).1) (power place).2 := by
  obtain ⟨hnum, -⟩ := power_pos place
  have hscale (quarters : Nat) : quarters <<< exponent units * (power place).2 =
      quarters * ((power place).2 * 2 ^ exponent units) := by
    rw [Nat.shiftLeft_eq, Nat.mul_assoc, Nat.mul_comm (2 ^ _)]
  have hstep : (power place).1 * 4 * one = 4 * ((power place).1 * one) := by
    rw [Nat.mul_comm _ 4, Nat.mul_assoc]
  have hpoint (d : Nat) : d * (power place).1 * 4 * one = d * (4 * ((power place).1 * one)) := by
    rw [Nat.mul_assoc d, Nat.mul_assoc d, hstep]
  have hmiddle : units * (power place).2 =
      mantissa units * ((power place).2 * 2 ^ exponent units) := by
    conv_lhs => rw [← Binary64.mantissa_mul hunits]
    rw [Nat.mul_assoc, Nat.mul_comm (2 ^ _)]
  have hbelow : (interval units).below place =
      4 * (mantissa units * ((power place).2 * 2 ^ exponent units)) /
        (4 * ((power place).1 * one)) := by
    rw [interval_eq, Interval.below]
    dsimp only
    rw [hscale, hstep, Nat.mul_assoc]
  rw [hmiddle] at h
  obtain ⟨hpositive, habove, hclose⟩ := fine_bounds (Nat.mul_pos hnum Binary64.one_pos)
    (Nat.mul_le_mul_right _ (Binary64.mantissa_lt units).le) h
  rw [← hbelow] at hpositive habove hclose
  obtain ⟨d, hd, hle, hcontains⟩ | ⟨-, hnot⟩ := onGrid_cases (interval units) place
  · exact ⟨d, Nat.ne_of_gt (hpositive.trans_le hle), hd, hcontains⟩
  · refine absurd ?_ hnot
    generalize (interval units).below place = below at habove hclose ⊢
    rw [interval_eq, Interval.Contains]
    simp only [hscale, hpoint, decide_eq_true_eq]
    generalize (power place).2 * 2 ^ exponent units = bit at habove hclose ⊢
    generalize (below + 1) * (4 * ((power place).1 * one)) = point at habove hclose ⊢
    split_ifs <;> simp only [Nat.sub_mul, Nat.add_mul, Nat.mul_assoc] <;> omega

/-! ## The search -/

/-- What is found is not zero and lies in the interval. -/
theorem search_some {result : Nat × Int} (h : search range point fuel count = some result) :
    result.1 ≠ 0 ∧ range.Contains (result.1 * (power result.2).1) (power result.2).2 := by
  induction fuel generalizing count with
  | zero => cases h
  | succ fuel ih =>
    rw [search] at h
    obtain ⟨d, hd, -, hcontains⟩ | ⟨hnone, -⟩ := onGrid_cases range (point - count)
    · rw [hd] at h
      dsimp only at h
      split at h
      · exact ih h
      · next hne =>
        obtain rfl := Option.some.inj h
        exact ⟨hne, hcontains⟩
    · rw [hnone] at h
      exact ih h

/-- If there is a point on one of the grids, one is found. -/
theorem search_isSome (hd : d ≠ 0) (h : onGrid range (point - (count + k : Nat)) = some d)
    (hk : k < fuel) : (search range point fuel count).isSome := by
  induction fuel generalizing count k with
  | zero => cases hk
  | succ fuel ih =>
    rw [search]
    cases k with
    | zero =>
      rw [Nat.add_zero] at h
      simp only [h, hd, if_false, Option.isSome_some]
    | succ k =>
      have hmore : (search range point fuel (count + 1)).isSome :=
        ih (by rwa [Nat.add_right_comm, Nat.add_assoc]) (Nat.lt_of_succ_lt_succ hk)
      split
      · split
        · exact hmore
        · rfl
      · exact hmore

/-- The search comes to an end with digits in the interval. -/
theorem digits_eq (hunits : Representable units) (hpos : 0 < units) :
    ∃ d place, d ≠ 0 ∧
      (interval units).Contains (d * (power place).1) (power place).2 ∧
      digits units =
        ⟨dropTrailingZeros (Nat.toDigits 10 d), place + (Nat.toDigits 10 d).length⟩ := by
  have hpower := powerAtMost_pointOf hpos hunits.1
  -- unfolded without its argument, so that nothing is computed
  obtain ⟨f, hf⟩ : ∃ f, digits = f := ⟨_, rfl⟩
  rw [hf]
  delta digits at hf
  subst hf
  beta_reduce
  generalize pointOf units = point at hpower ⊢
  have hlast : point - 1 = point - (1 + 17 : Nat) + (17 : Nat) := by omega
  rw [hlast] at hpower
  obtain ⟨d, hd, hgrid, -⟩ := exists_onGrid hunits (powerAtMost_add hpower)
  have hsome : (search (interval units) point 18 1).isSome := search_isSome hd hgrid (by omega)
  obtain ⟨⟨d, place⟩, hsearch⟩ := Option.isSome_iff_exists.mp hsome
  obtain ⟨hne, hcontains⟩ := search_some hsearch
  rw [hsearch]
  exact ⟨d, place, hne, hcontains, rfl⟩

end TableRecipe.Shortest
