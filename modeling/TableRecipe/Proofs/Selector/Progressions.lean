import TableRecipe.Proofs.Selector.CheckedSums

/-!
# Slices as progressions

A slice picks the terms of an arithmetic progression: it starts from the first bound and goes on by
its step as long as it has not come to the second one. A negative bound is counted from the end, one
outside of the list is moved to its edge, and one that is left out stands at the edge on its side.

* `Slice.Before`, `Slice.stepCount` — the places in front of a bound, and how many there are;
* `Slice.first`, `Slice.limit` — where the progression starts, and what it does not come to;
* `Slice.term`, `Slice.progression` — its terms;
* `Slice.positions_eq_progression` — the places of a slice are just these.
-/

namespace TableRecipe.Slice

open Binary64 (Signed)

variable {slice : Slice} {length n : Nat} {step stop start bound : Int}

/-! ## Steps towards a bound -/

/-- whether a place lies in front of a bound for one who goes by a step -/
def Before (step stop place : Int) : Prop := 0 < step ∧ place < stop ∨ step < 0 ∧ stop < place

instance {place : Int} : Decidable (Before step stop place) := inferInstanceAs (Decidable (_ ∨ _))

/-- how many steps start in front of a bound: the way there divided by the step, rounded up -/
def stepCount (step stop start : Int) : Nat := (-(start - stop).fdiv step).toNat

/-- So many steps start in front of the bound, and no more. -/
theorem lt_stepCount_iff (hstep : step ≠ 0) :
    n < stepCount step stop start ↔ Before step stop (start + n * step) := by
  have hcount : n < stepCount step stop start ↔ (start - stop).fdiv step < -n := by
    rw [stepCount, Int.lt_toNat]
    omega
  rw [hcount, Before]
  rcases Int.lt_or_gt_of_ne hstep with hback | hahead
  · have hflip : (start - stop).fdiv step = (stop - start) / -step := by
      rw [← Int.neg_fdiv_neg, Int.neg_sub, Int.fdiv_eq_ediv_of_nonneg _ (by omega)]
    rw [hflip, Int.ediv_lt_iff_lt_mul (by omega), Int.neg_mul_neg]
    omega
  · rw [Int.fdiv_eq_ediv_of_nonneg _ (by omega), Int.ediv_lt_iff_lt_mul hahead, Int.neg_mul]
    omega

/-! ## The progression of a slice -/

/-- the edge in front of a list, beside its first place for those who go back -/
def edge (slice : Slice) : Int := if 0 < slice.distance then 0 else -1

/-- where a bound stands in a list of a length: a negative one is counted from the end, and one
outside of the list is moved to its edge -/
def settle (slice : Slice) (length : Nat) (bound : Int) : Int :=
  max slice.edge (min (length + slice.edge) (if bound < 0 then length + bound else bound))

/-- where the progression starts -/
def first (slice : Slice) (length : Nat) : Int :=
  match slice.start with
  | some bound => slice.settle length bound
  | none => if 0 < slice.distance then 0 else length - 1

/-- what the progression does not come to -/
def limit (slice : Slice) (length : Nat) : Int :=
  match slice.stop with
  | some bound => slice.settle length bound
  | none => if 0 < slice.distance then length else -1

/-- the place after so many steps -/
def term (slice : Slice) (length n : Nat) : Int := slice.first length + n * slice.distance

/-- the places in front of the limit, in the order of the steps -/
def progression (slice : Slice) (length : Nat) : List Nat :=
  (List.range (stepCount slice.distance (slice.limit length) (slice.first length))).map
    fun n : Nat => (slice.term length n).toNat

theorem clamp_eq_settle (slice : Slice) (length : Nat) (bound : Int) :
    clamp length slice.edge (length + slice.edge) bound = slice.settle length bound := by
  simp only [clamp, settle, Int.add_comm bound]
  split_ifs <;> omega

theorem begins_eq_first (slice : Slice) (length : Nat) :
    slice.begins length = slice.first length := by
  have hclamp := clamp_eq_settle slice length
  rw [edge] at hclamp
  rw [begins, first]
  by_cases hahead : 0 < slice.distance <;> cases slice.start <;> simp_all [Int.sub_eq_add_neg]

theorem ends_eq_limit (slice : Slice) (length : Nat) :
    slice.ends length = slice.limit length := by
  have hclamp := clamp_eq_settle slice length
  rw [edge] at hclamp
  rw [ends, limit]
  by_cases hahead : 0 < slice.distance <;> cases slice.stop <;> simp_all [Int.sub_eq_add_neg]

/-- Places in front of the limit lie inside the list. -/
theorem term_inside (h : Before slice.distance (slice.limit length) (slice.term length n)) :
    0 ≤ slice.term length n ∧ slice.term length n < length := by
  rw [term, ← begins_eq_first, ← ends_eq_limit] at *
  rcases h with ⟨hahead, hlt⟩ | ⟨hback, hlt⟩
  · have hbegins : 0 ≤ slice.begins length := begins_nonneg hahead
    have hends : slice.ends length ≤ length := ends_le hahead
    have hway : 0 ≤ n * slice.distance := Int.mul_nonneg (by omega) hahead.le
    omega
  · have hnot : ¬0 < slice.distance := by omega
    have hbegins : slice.begins length < length := begins_lt hnot
    have hends : -1 ≤ slice.ends length := le_ends hnot
    have hway : n * slice.distance ≤ 0 := Int.mul_nonpos_of_nonneg_of_nonpos (by omega) hback.le
    omega

/-- After so many steps the progression is at its term, unless it has come to the limit. -/
theorem getElem?_progression (hstep : slice.distance ≠ 0) (n : Nat) :
    (slice.progression length)[n]?.map (fun place : Nat => (place : Int)) =
      if Before slice.distance (slice.limit length) (slice.term length n) then
        some (slice.term length n)
      else none := by
  rw [progression, List.getElem?_map]
  by_cases h : Before slice.distance (slice.limit length) (slice.term length n)
  · rw [if_pos h, List.getElem?_range ((lt_stepCount_iff hstep).mpr h), Option.map_some,
      Option.map_some, Int.toNat_of_nonneg (term_inside h).1]
  · rw [if_neg h, List.getElem?_eq_none]
    · rfl
    · rw [List.length_range, ← Nat.not_lt, lt_stepCount_iff hstep]
      exact h

theorem mem_progression (hstep : slice.distance ≠ 0) {place : Nat} :
    place ∈ slice.progression length ↔ ∃ n : Nat,
      Before slice.distance (slice.limit length) (slice.term length n) ∧
        place = slice.term length n := by
  simp only [progression, List.mem_map, List.mem_range, lt_stepCount_iff hstep]
  refine exists_congr fun n => and_congr_right fun h => ?_
  have hinside := term_inside h
  omega

/-! ## The places of a slice are those of its progression -/

/-- What lies a multiple of the step away, on the way to the limit, is so many steps away. -/
theorem picks_iff (hstep : slice.distance ≠ 0) {place : Nat} :
    slice.Picks length place ↔ ∃ n : Nat,
      Before slice.distance (slice.limit length) (slice.term length n) ∧
        place = slice.term length n := by
  rw [Picks, begins_eq_first, ends_eq_limit]
  constructor
  · rintro ⟨⟨steps, hsteps⟩, hway⟩
    -- steps the other way would lead away from the limit
    have hnonneg : 0 ≤ steps := by
      refine Int.not_lt.mp fun hneg => ?_
      by_cases hahead : 0 < slice.distance
      · have haway : slice.distance * steps < 0 := Int.mul_neg_of_pos_of_neg hahead hneg
        rw [if_pos hahead] at hway
        omega
      · have haway : 0 < slice.distance * steps := Int.mul_pos_of_neg_of_neg (by omega) hneg
        rw [if_neg hahead] at hway
        omega
    obtain ⟨n, rfl⟩ := Int.eq_ofNat_of_zero_le hnonneg
    have hplace : (place : Int) = slice.term length n := by
      rw [term, Int.mul_comm]
      omega
    refine ⟨n, ?_, hplace⟩
    rw [← hplace, Before]
    split at hway <;> omega
  · rintro ⟨n, hbefore, hplace⟩
    refine ⟨⟨n, ?_⟩, ?_⟩
    · rw [hplace, term, Int.mul_comm]
      omega
    · rw [← hplace] at hbefore
      rcases hbefore with ⟨hahead, hlt⟩ | ⟨hback, hlt⟩
      · have hway : 0 ≤ n * slice.distance := Int.mul_nonneg (by omega) hahead.le
        rw [term] at hplace
        rw [if_pos hahead]
        omega
      · have hway : n * slice.distance ≤ 0 :=
          Int.mul_nonpos_of_nonneg_of_nonpos (by omega) hback.le
        rw [term] at hplace
        rw [if_neg (by omega)]
        omega

/-- The places of a progression are in the order in which steps come to them. -/
theorem pairwise_progression (hstep : slice.distance ≠ 0) :
    (slice.progression length).Pairwise fun earlier later =>
      if 0 < slice.distance then earlier < later else later < earlier := by
  rw [progression, List.pairwise_map]
  refine List.pairwise_lt_range.imp_of_mem fun {m n} hm hn hlt => ?_
  rw [List.mem_range, lt_stepCount_iff hstep] at hm hn
  have hfirst := term_inside hm
  have hsecond := term_inside hn
  have hmore : (n : Int) - m > 0 := by omega
  have hway : slice.term length n = slice.term length m + (n - m) * slice.distance := by
    rw [term, term, Int.sub_mul]
    omega
  split
  · next hahead =>
    have hpos : 0 < (n - m : Int) * slice.distance := Int.mul_pos hmore hahead
    omega
  · have hneg : (n - m : Int) * slice.distance < 0 := Int.mul_neg_of_pos_of_neg hmore (by omega)
    omega

theorem places_eq_progression (hstep : slice.distance ≠ 0) :
    slice.places length = slice.progression length := by
  have hmem : ∀ place, place ∈ slice.places length ↔ place ∈ slice.progression length := by
    intro place
    rw [mem_places, picks_iff hstep, mem_progression hstep, and_iff_right_iff_imp]
    rintro ⟨n, hbefore, hplace⟩
    have hinside := term_inside hbefore
    omega
  have hordered := @pairwise_progression slice length hstep
  by_cases hahead : 0 < slice.distance
  · simp only [hahead, if_true] at hordered
    refine List.Pairwise.eq_of_mem_iff ?_ hordered hmem
    simp only [places, hahead, if_true]
    exact List.pairwise_lt_range.filter _
  · simp only [hahead, if_false] at hordered
    refine List.Pairwise.eq_of_mem_iff ?_ hordered hmem
    simp only [places, hahead, if_false]
    exact (List.pairwise_reverse.mpr List.pairwise_lt_range).filter _

/-- **Slices as progressions.** Take a slice whose parts have 64 bits and whose step is not zero,
and a list whose length and the width of the step are together less than `2 ^ 63`. Then every sum on
the way has 64 bits, and the slice has its places: the terms of its progression, in the order of the
steps, as long as they lie in front of the limit; all of them inside the list. -/
theorem positions_eq_progression (hsmall : slice.Small) (hstep : slice.distance ≠ 0)
    (hwidth : (length : Int) + slice.distance.natAbs < 2 ^ 63) :
    slice.checkedPositions length = .ok (slice.progression length) ∧
      slice.positions length = .ok (slice.progression length) ∧
      (∀ n, (slice.progression length)[n]?.map (fun place : Nat => (place : Int)) =
        if Before slice.distance (slice.limit length) (slice.term length n) then
          some (slice.term length n)
        else none) ∧
      ∀ place ∈ slice.progression length, place < length := by
  have hmost : Binary64.maxSigned = 9223372036854775807 := rfl
  have hpositions : slice.positions length = .ok (slice.progression length) := by
    have hnear : ¬slice.LeadsTooFar length := not_leadsTooFar (by omega)
    rw [← places_eq_progression hstep]
    exact positions_eq_places hstep ((stepsFit_iff hsmall (by omega)).mpr hnear)
  refine ⟨?_, hpositions, getElem?_progression hstep, fun place hplace => ?_⟩
  · rw [checkedPositions_eq hsmall (by omega), hpositions]
  · rw [← places_eq_progression hstep] at hplace
    exact (mem_places.mp hplace).1

/-- from the place before the last one back by twos, to a bound far in front of the list -/
def backByTwos : Slice := ⟨some (-2), some (-9223372036854775808), some (-2)⟩

theorem positions_eq_progression_backByTwos :
    backByTwos.Small ∧ backByTwos.distance ≠ 0 ∧
      ((7 : Nat) : Int) + backByTwos.distance.natAbs < 2 ^ 63 ∧
      backByTwos.checkedPositions 7 = .ok [5, 3, 1] ∧ backByTwos.positions 7 = .ok [5, 3, 1] := by
  have hsmall : backByTwos.Small := by
    constructor <;> simp [backByTwos, Signed, Binary64.minSigned, Binary64.maxSigned]
  have hprogression : backByTwos.progression 7 = [5, 3, 1] := by decide +kernel
  obtain ⟨hchecked, hpositions, -⟩ :=
    @positions_eq_progression backByTwos 7 hsmall (by decide) (by decide)
  rw [hprogression] at hchecked hpositions
  exact ⟨hsmall, by decide, by decide, hchecked, hpositions⟩

end TableRecipe.Slice
