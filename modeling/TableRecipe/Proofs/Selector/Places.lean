import Mathlib.Algebra.Ring.Divisibility.Basic
import Mathlib.Algebra.Ring.Int.Defs
import Mathlib.Data.List.Sort
import TableRecipe.Selector.Slice

/-!
# The places of a slice

A slice picks the places between its bounds that lie a multiple of its step away from the first
bound, forwards or backwards. As long as no place on the way leaves the integers of 64 bits, these
are the places that steps from the one bound towards the other come to.

* `Slice.Picks`, `Slice.places` — the places that a slice picks, in order;
* `Slice.StepsFit` — no step leads out of the integers of 64 bits;
* `Slice.positions_eq_places` — steps come to the places that are picked.
-/

namespace TableRecipe.Slice

variable {slice : Slice} {length : Nat} {step stop position : Int}

/-! ## The places that are picked -/

/-- the distance between places -/
def distance (slice : Slice) : Int := slice.step.getD 1

/-- the place where a slice begins in a list of a length, or the one beside the list -/
def begins (slice : Slice) (length : Nat) : Int :=
  if 0 < slice.distance then (slice.start.map (clamp length 0 length)).getD 0
  else (slice.start.map (clamp length (-1) (length - 1))).getD (length - 1)

/-- the place before which a slice ends in a list of a length -/
def ends (slice : Slice) (length : Nat) : Int :=
  if 0 < slice.distance then (slice.stop.map (clamp length 0 length)).getD length
  else (slice.stop.map (clamp length (-1) (length - 1))).getD (-1)

/-- whether a slice picks a place in a list of a length -/
def Picks (slice : Slice) (length place : Nat) : Prop :=
  slice.distance ∣ place - slice.begins length ∧
    if 0 < slice.distance then slice.begins length ≤ place ∧ place < slice.ends length
    else slice.ends length < place ∧ place ≤ slice.begins length

instance {place : Nat} : Decidable (slice.Picks length place) :=
  inferInstanceAs (Decidable (_ ∧ _))

/-- the places that a slice picks in a list of a length, from the last on if its step is
negative -/
def places (slice : Slice) (length : Nat) : List Nat :=
  (if 0 < slice.distance then List.range length else (List.range length).reverse).filter
    (slice.Picks length)

/-- whether no step from a place that is picked leads out of the integers of 64 bits -/
def StepsFit (slice : Slice) (length : Nat) : Prop :=
  ∀ place ∈ slice.places length, Binary64.minSigned ≤ place + slice.distance ∧
    place + slice.distance ≤ Binary64.maxSigned

instance : Decidable (slice.StepsFit length) := inferInstanceAs (Decidable (∀ _ ∈ _, _))

/-! ## Steps from place to place -/

theorem dvd_next_iff {place : Int} :
    step ∣ place - (position + step) ↔ step ∣ place - position := by
  rw [← Int.sub_sub]
  exact dvd_sub_self_right

/-- What lies a multiple of a step ahead lies at the next place or after it. -/
theorem next_le {place : Int} (hdvd : step ∣ place - position) (hlt : position < place) :
    position + step ≤ place := by
  have := Int.le_of_dvd (by omega) hdvd
  omega

/-- What lies a multiple of a step behind lies at the next place or before it. -/
theorem le_next {place : Int} (hdvd : step ∣ place - position) (hlt : place < position) :
    place ≤ position + step := by
  have := Int.le_of_dvd (by omega) (neg_dvd.mpr (dvd_sub_comm.mp hdvd))
  omega

/-- Steps forwards come to the places that lie a multiple of the step ahead. -/
theorem ascend_ok (hstep : 0 < step) (hposition : 0 ≤ position)
    (hfits : ∀ place : Nat, step ∣ place - position → position ≤ place → place < stop →
      place + step ≤ Binary64.maxSigned) :
    ∃ places, ascend step stop position = .ok places ∧ places.Pairwise (· < ·) ∧
      ∀ place : Nat, place ∈ places ↔
        step ∣ place - position ∧ position ≤ place ∧ place < stop := by
  fun_induction ascend step stop position with
  | case1 position h hoverflow =>
    have := hfits position.toNat (by simp [hposition]) (by omega) (by omega)
    omega
  | case2 position h hoverflow ih =>
    obtain ⟨places, hplaces, hsorted, hmem⟩ := ih (by omega) fun place hdvd hle =>
      hfits place (dvd_next_iff.mp hdvd) (by omega)
    refine ⟨position.toNat :: places, by rw [hplaces]; rfl, ?_, fun place => ?_⟩
    · refine List.pairwise_cons.mpr ⟨fun place hplace => ?_, hsorted⟩
      have := (hmem place).mp hplace
      omega
    · rw [List.mem_cons, hmem, dvd_next_iff]
      constructor
      · rintro (rfl | ⟨hdvd, hle, hlt⟩)
        · exact ⟨by simp [hposition], by omega, by omega⟩
        · exact ⟨hdvd, by omega, hlt⟩
      · rintro ⟨hdvd, hle, hlt⟩
        rcases hle.eq_or_lt with heq | hahead
        · exact .inl (by omega)
        · exact .inr ⟨hdvd, next_le hdvd hahead, hlt⟩
  | case3 position h =>
    refine ⟨[], rfl, .nil, fun place => ?_⟩
    simp only [List.not_mem_nil, false_iff]
    omega

/-- Steps backwards come to the places that lie a multiple of the step behind. -/
theorem descend_ok (hstep : step < 0) (hstop : -1 ≤ stop)
    (hfits : ∀ place : Nat, step ∣ place - position → stop < place → place ≤ position →
      Binary64.minSigned ≤ place + step) :
    ∃ places, descend step stop position = .ok places ∧ places.Pairwise (· > ·) ∧
      ∀ place : Nat, place ∈ places ↔
        step ∣ place - position ∧ stop < place ∧ place ≤ position := by
  fun_induction descend step stop position with
  | case1 position h hoverflow =>
    have hhere : (position.toNat : Int) = position := Int.toNat_of_nonneg (by omega)
    have := hfits position.toNat (by simp [hhere]) (by omega) (by omega)
    omega
  | case2 position h hoverflow ih =>
    have hhere : (position.toNat : Int) = position := Int.toNat_of_nonneg (by omega)
    obtain ⟨places, hplaces, hsorted, hmem⟩ := ih fun place hdvd hlt hle =>
      hfits place (dvd_next_iff.mp hdvd) hlt (by omega)
    refine ⟨position.toNat :: places, by rw [hplaces]; rfl, ?_, fun place => ?_⟩
    · refine List.pairwise_cons.mpr ⟨fun place hplace => ?_, hsorted⟩
      have := (hmem place).mp hplace
      omega
    · rw [List.mem_cons, hmem, dvd_next_iff]
      constructor
      · rintro (rfl | ⟨hdvd, hlt, hle⟩)
        · exact ⟨by simp [hhere], by omega, by omega⟩
        · exact ⟨hdvd, hlt, by omega⟩
      · rintro ⟨hdvd, hlt, hle⟩
        rcases hle.eq_or_lt with heq | hbehind
        · exact .inl (by omega)
        · exact .inr ⟨hdvd, hlt, le_next hdvd hbehind⟩
  | case3 position h =>
    refine ⟨[], rfl, .nil, fun place => ?_⟩
    simp only [List.not_mem_nil, false_iff]
    omega

/-! ## The places of a slice -/

theorem le_clamp {low high bound : Int} (h : low ≤ high) : low ≤ clamp length low high bound := by
  simp only [clamp]
  split_ifs <;> omega

theorem clamp_le {low high bound : Int} (h : low ≤ high) : clamp length low high bound ≤ high := by
  simp only [clamp]
  split_ifs <;> omega

theorem begins_nonneg (h : 0 < slice.distance) : 0 ≤ slice.begins length := by
  simp only [begins, h, if_true]
  cases slice.start with
  | none => simp
  | some bound => exact le_clamp (by omega)

theorem begins_lt (h : ¬ 0 < slice.distance) : slice.begins length < length := by
  simp only [begins, h, if_false]
  cases slice.start with
  | none => exact Int.sub_one_lt_of_le le_rfl
  | some bound => exact Int.lt_of_le_sub_one (clamp_le (by omega))

theorem ends_le (h : 0 < slice.distance) : slice.ends length ≤ length := by
  simp only [ends, h, if_true]
  cases slice.stop with
  | none => simp
  | some bound => exact clamp_le (by omega)

theorem le_ends (h : ¬ 0 < slice.distance) : -1 ≤ slice.ends length := by
  simp only [ends, h, if_false]
  cases slice.stop with
  | none => simp
  | some bound => exact le_clamp (by omega)

theorem mem_places {place : Nat} :
    place ∈ slice.places length ↔ place < length ∧ slice.Picks length place := by
  simp only [places, List.mem_filter, decide_eq_true_eq]
  split_ifs <;> simp

/-- Steps begin at the one bound and end at the other. -/
theorem positions_eq (slice : Slice) (length : Nat) :
    slice.positions length =
      if slice.distance = 0 then throw (.validation "slice step cannot be zero")
      else if 0 < slice.distance then
        ascend slice.distance (slice.ends length) (slice.begins length)
      else descend slice.distance (slice.ends length) (slice.begins length) := by
  by_cases hzero : slice.step.getD 1 = 0
  · simp [positions, distance, hzero]
  · by_cases hforwards : 0 < slice.step.getD 1 <;>
      simp [positions, distance, begins, ends, hzero, hforwards]

/-- **The places of a slice.** Steps from the one bound towards the other come to the places that
lie a multiple of the step away from the first bound, unless a step leads too far. -/
theorem positions_eq_places (hstep : slice.distance ≠ 0) (hfits : slice.StepsFit length) :
    slice.positions length = .ok (slice.places length) := by
  rw [positions_eq, if_neg hstep]
  by_cases hforwards : 0 < slice.distance
  · have hpicked : ∀ place : Nat, place ∈ slice.places length ↔
        slice.distance ∣ place - slice.begins length ∧ slice.begins length ≤ place ∧
          place < slice.ends length := by
      intro place
      have hends : slice.ends length ≤ length := ends_le hforwards
      simp only [mem_places, Picks, hforwards, if_true, and_iff_right_iff_imp]
      omega
    obtain ⟨steps, hsteps, hsorted, hmem⟩ := ascend_ok hforwards (begins_nonneg hforwards)
      fun place hdvd hle hlt => (hfits place ((hpicked place).mpr ⟨hdvd, hle, hlt⟩)).2
    have hrange : (slice.places length).Pairwise (· < ·) := by
      simp only [places, hforwards, if_true]
      exact List.pairwise_lt_range.filter _
    rw [if_pos hforwards, hsteps]
    exact congrArg _ (hsorted.eq_of_mem_iff hrange fun place => by rw [hmem, hpicked])
  · have hpicked : ∀ place : Nat, place ∈ slice.places length ↔
        slice.distance ∣ place - slice.begins length ∧ slice.ends length < place ∧
          place ≤ slice.begins length := by
      intro place
      have hbegins : slice.begins length < length := begins_lt hforwards
      simp only [mem_places, Picks, hforwards, if_false, and_iff_right_iff_imp]
      omega
    have hbackwards : slice.distance < 0 := by omega
    obtain ⟨steps, hsteps, hsorted, hmem⟩ := descend_ok hbackwards (le_ends hforwards)
      fun place hdvd hlt hle => (hfits place ((hpicked place).mpr ⟨hdvd, hlt, hle⟩)).1
    have hrange : (slice.places length).Pairwise (· > ·) := by
      simp only [places, hforwards, if_false]
      exact (List.pairwise_reverse.mpr List.pairwise_lt_range).filter _
    rw [if_neg hforwards, hsteps]
    exact congrArg _ (hsorted.eq_of_mem_iff hrange fun place => by rw [hmem, hpicked])

/-! ## Slices that texts write -/

/-- Each piece of the text of a slice is one of its parts; a part is left out or written by a
piece. -/
theorem parts_of_read? {cs : List Char} (h : read? cs = some slice) :
    (∀ piece ∈ Split.on ':' cs, (part? piece).isSome) ∧
      ∀ part ∈ [slice.start, slice.stop, slice.step], part = none ∨
        ∃ piece, part? piece = some part := by
  rw [read?] at h
  split at h
  · next start stop hpieces =>
    obtain ⟨first, hstart, h⟩ := Option.bind_eq_some_iff.mp h
    obtain ⟨second, hstop, h⟩ := Option.bind_eq_some_iff.mp h
    obtain rfl := Option.some.inj h
    rw [hpieces]
    exact ⟨by simp [hstart, hstop], by simpa using ⟨.inr ⟨_, hstart⟩, .inr ⟨_, hstop⟩⟩⟩
  · next start stop step hpieces =>
    obtain ⟨first, hstart, h⟩ := Option.bind_eq_some_iff.mp h
    obtain ⟨second, hstop, h⟩ := Option.bind_eq_some_iff.mp h
    obtain ⟨third, hstep, h⟩ := Option.bind_eq_some_iff.mp h
    obtain rfl := Option.some.inj h
    rw [hpieces]
    exact ⟨by simp [hstart, hstop, hstep],
      by simpa using ⟨.inr ⟨_, hstart⟩, .inr ⟨_, hstop⟩, .inr ⟨_, hstep⟩⟩⟩
  · cases h

end TableRecipe.Slice
