import TableRecipe.Proofs.Number.Whole
import TableRecipe.Proofs.Selector.Meanings

/-!
# The sums of a slice

Every sum that is formed on the way to the places of a slice has 64 bits, save one: the step ahead
from the last place may lead too far. Then the slice has no places at all; else its places lie
inside the list.

* `Slice.checkedPositions` — the places of a slice, every sum being checked;
* `Slice.checkedPositions_eq` — checking every sum makes no difference;
* `Slice.LeadsTooFar` — a step ahead leads beyond 64 bits;
* `Selector.apply_slice` — the columns that a slice selects.
-/

namespace TableRecipe

variable {n : Int} {cs : List Char}

/-! ## Checked sums -/

/-- whether an integer has 64 bits -/
def Binary64.Signed (n : Int) : Prop := minSigned ≤ n ∧ n ≤ maxSigned

instance : Decidable (Binary64.Signed n) := inferInstanceAs (Decidable (_ ∧ _))

namespace Slice

open Binary64 (Signed)

variable {slice : Slice} {length : Nat} {step stop position bound : Int}

/-- a sum, unless it needs more than 64 bits -/
def checkedSum (a b : Int) : Except Error Int :=
  if Signed (a + b) then .ok (a + b) else .error (.of .overflow)

/-- a bound counted from the front and kept between two places, or what stands for one that is left
out, every sum being checked -/
def checkedBound (length low high missing : Int) : Option Int → Except Error Int
  | none => return missing
  | some bound => do
    let bound ← if bound < 0 then checkedSum bound length else pure bound
    return if bound < low then low else if high < bound then high else bound

/-- the places from one bound towards the other, every sum being checked -/
def checkedSteps (step stop position : Int) : Except Error (List Nat) :=
  if _h : 0 < step ∧ position < stop ∨ step < 0 ∧ stop < position then do
    let _ ← checkedSum position step
    return position.toNat :: (← checkedSteps step stop (position + step))
  else return []
termination_by (if 0 < step then stop - position else position - stop).toNat
decreasing_by split <;> omega

/-- the places that a slice picks in a list of a length, every sum being checked -/
def checkedPositions (slice : Slice) (length : Nat) : Except Error (List Nat) :=
  if slice.distance = 0 then throw (.validation "slice step cannot be zero")
  else if 0 < slice.distance then do
    let start ← checkedBound length 0 length 0 slice.start
    let stop ← checkedBound length 0 length length slice.stop
    checkedSteps slice.distance stop start
  else do
    let last ← checkedSum length (-1)
    let start ← checkedBound length (-1) last last slice.start
    let stop ← checkedBound length (-1) last (-1) slice.stop
    checkedSteps slice.distance stop start

theorem checkedSum_eq {a b : Int} (h : Signed (a + b)) : checkedSum a b = .ok (a + b) := if_pos h

/-- A bound of 64 bits is counted from the front in 64 bits. -/
theorem checkedBound_eq (hlength : (length : Int) ≤ Binary64.maxSigned) {bound? : Option Int}
    (hbound : ∀ bound ∈ bound?, Signed bound) (low high missing : Int) :
    checkedBound length low high missing bound? =
      .ok ((bound?.map (clamp length low high)).getD missing) := by
  have hmost : Binary64.maxSigned = 9223372036854775807 := rfl
  have hleast : Binary64.minSigned = -9223372036854775808 := rfl
  cases bound? with
  | none => rfl
  | some bound =>
    obtain ⟨hlow, hhigh⟩ := hbound bound rfl
    rw [checkedBound]
    by_cases hnegative : bound < 0
    · rw [if_pos hnegative, checkedSum_eq ⟨by omega, by omega⟩]
      simp only [Option.map_some, Option.getD_some, clamp, hnegative, if_true]
      rfl
    · rw [if_neg hnegative]
      simp only [Option.map_some, Option.getD_some, clamp, hnegative, if_false]
      rfl

/-- Steps ahead only grow, so that they need no check below. -/
theorem checkedSteps_ahead (hstep : 0 < step) (hposition : 0 ≤ position) :
    checkedSteps step stop position = ascend step stop position := by
  have hleast : Binary64.minSigned = -9223372036854775808 := rfl
  fun_induction ascend step stop position with
  | case1 position h hoverflow =>
    have hnot : ¬Signed (position + step) := fun hsigned => by have := hsigned.2; omega
    rw [checkedSteps, dif_pos (.inl h), checkedSum, if_neg hnot]
    rfl
  | case2 position h hoverflow ih =>
    rw [checkedSteps, dif_pos (.inl h), checkedSum_eq ⟨by omega, by omega⟩, ih (by omega)]
    rfl
  | case3 position h =>
    rw [checkedSteps, dif_neg (by omega)]

/-- Steps back only shrink, so that they need no check above. -/
theorem checkedSteps_back (hstep : step < 0) (hposition : position ≤ Binary64.maxSigned) :
    checkedSteps step stop position = descend step stop position := by
  fun_induction descend step stop position with
  | case1 position h hoverflow =>
    have hnot : ¬Signed (position + step) := fun hsigned => by have := hsigned.1; omega
    rw [checkedSteps, dif_pos (.inr h), checkedSum, if_neg hnot]
    rfl
  | case2 position h hoverflow ih =>
    rw [checkedSteps, dif_pos (.inr h), checkedSum_eq ⟨by omega, by omega⟩, ih (by omega)]
    rfl
  | case3 position h =>
    rw [checkedSteps, dif_neg (by omega)]

/-- whether the parts of a slice have 64 bits -/
structure Small (slice : Slice) : Prop where
  /-- the first bound -/
  start : ∀ bound ∈ slice.start, Signed bound
  /-- the second bound -/
  stop : ∀ bound ∈ slice.stop, Signed bound
  /-- the step -/
  step : ∀ distance ∈ slice.step, Signed distance

/-- **Checked sums.** Checking every sum on the way to the places of a slice makes no difference. -/
theorem checkedPositions_eq (hsmall : slice.Small)
    (hlength : (length : Int) ≤ Binary64.maxSigned) :
    slice.checkedPositions length = slice.positions length := by
  have hlast : Signed ((length : Int) + -1) := ⟨by
    have hleast : Binary64.minSigned = -9223372036854775808 := rfl
    omega, by omega⟩
  rw [positions_eq, checkedPositions]
  by_cases hzero : slice.distance = 0
  · rw [if_pos hzero, if_pos hzero]
  · rw [if_neg hzero, if_neg hzero]
    -- the place before the first one is formed on the way back only
    by_cases hahead : 0 < slice.distance
    · rw [if_pos hahead, if_pos hahead, checkedBound_eq hlength hsmall.start,
        checkedBound_eq hlength hsmall.stop, ← checkedSteps_ahead hahead (begins_nonneg hahead)]
      simp only [begins, ends, hahead, if_true]
      rfl
    · have hbegins : slice.begins length < length := begins_lt hahead
      rw [if_neg hahead, if_neg hahead, checkedSum_eq hlast,
        ← checkedSteps_back (by omega) (show slice.begins length ≤ Binary64.maxSigned by omega)]
      show (checkedBound _ _ _ _ _ >>= fun start => checkedBound _ _ _ _ _ >>= fun stop => _) = _
      rw [checkedBound_eq hlength hsmall.start, checkedBound_eq hlength hsmall.stop]
      simp only [begins, ends, hahead, if_false]
      rfl

/-! ## Steps that lead too far -/

/-- whether a step ahead from a place that is picked leads beyond 64 bits -/
def LeadsTooFar (slice : Slice) (length : Nat) : Prop :=
  0 < slice.distance ∧ ∃ place ∈ slice.places length, Binary64.maxSigned < place + slice.distance

instance : Decidable (slice.LeadsTooFar length) := inferInstanceAs (Decidable (_ ∧ _))

theorem signed_distance (hsmall : slice.Small) : Signed slice.distance := by
  rw [distance]
  cases hstep : slice.step with
  | none => exact ⟨by decide, by decide⟩
  | some step => exact hsmall.step step hstep

/-- Of the steps from places only those ahead lead beyond 64 bits. -/
theorem stepsFit_iff (hsmall : slice.Small) (hlength : (length : Int) ≤ Binary64.maxSigned) :
    slice.StepsFit length ↔ ¬slice.LeadsTooFar length := by
  have hmost : Binary64.maxSigned = 9223372036854775807 := rfl
  have hleast : Binary64.minSigned = -9223372036854775808 := rfl
  have hdistance := signed_distance hsmall
  refine ⟨?_, ?_⟩
  · rintro hfits ⟨-, place, hplace, hfar⟩
    exact absurd (hfits place hplace).2 (Int.not_le.mpr hfar)
  · intro hnot place hplace
    have hinside := (mem_places.mp hplace).1
    obtain ⟨hlow, hhigh⟩ := hdistance
    refine ⟨by omega, Int.not_lt.mp fun hfar => ?_⟩
    exact hnot ⟨by omega, place, hplace, hfar⟩

/-- A step ahead that leads beyond 64 bits stops the search. -/
theorem ascend_overflow (hposition : 0 ≤ position)
    (h : ∃ place : Nat, step ∣ place - position ∧ position ≤ place ∧ place < stop ∧
      Binary64.maxSigned < place + step) (hstep : 0 < step) :
    ascend step stop position = .error (.of .overflow) := by
  obtain ⟨place, hdvd, hle, hlt, hfar⟩ := h
  -- the place from which a step leads too far stays ahead until it is come to
  fun_induction ascend step stop position with
  | case1 position h hoverflow => rfl
  | case2 position h hoverflow ih =>
    have hahead : position < place := by omega
    rw [ih (by omega) (dvd_next_iff.mpr hdvd) (next_le hdvd hahead)]
    rfl
  | case3 position h => omega

theorem positions_overflow (h : slice.LeadsTooFar length) :
    slice.positions length = .error (.of .overflow) := by
  obtain ⟨hahead, place, hplace, hfar⟩ := h
  obtain ⟨hlt, hpicks⟩ := mem_places.mp hplace
  rw [Picks, if_pos hahead] at hpicks
  rw [positions_eq, if_neg (by omega), if_pos hahead]
  exact ascend_overflow (begins_nonneg hahead)
    ⟨place, hpicks.1, hpicks.2.1, hpicks.2.2, hfar⟩ hahead

/-- Where the length and the step together have 64 bits, no step leads too far. -/
theorem not_leadsTooFar (h : (length : Int) + slice.distance ≤ Binary64.maxSigned + 1) :
    ¬slice.LeadsTooFar length := by
  rintro ⟨-, place, hplace, hfar⟩
  have hinside := (mem_places.mp hplace).1
  omega

/-! ## Slices that texts write -/

theorem signed_of_integer? (h : integer? cs = some n) : Signed n := Decimal.integer?_bounds h

theorem signed_of_part? {part : Option Int} (h : part? cs = some part) : ∀ n ∈ part, Signed n := by
  rw [part?] at h
  split at h
  · obtain rfl := Option.some.inj h
    exact nofun
  · obtain ⟨bound, hbound, rfl⟩ := Option.map_eq_some_iff.mp h
    exact fun n hn => Option.some.inj hn ▸ signed_of_integer? hbound

/-- The parts of a slice that a text writes have 64 bits. -/
theorem small_of_read? (h : read? cs = some slice) : slice.Small := by
  have hparts : ∀ part ∈ [slice.start, slice.stop, slice.step], ∀ n ∈ part, Signed n := by
    intro part hpart
    obtain rfl | ⟨piece, hpiece⟩ := (parts_of_read? h).2 part hpart
    · exact nofun
    · exact signed_of_part? hpiece
  exact ⟨hparts _ (by simp), hparts _ (by simp), hparts _ (by simp)⟩

end Slice

namespace Selector

variable {columns selected : List String} {text : String} {selector : Selector} {slice : Slice}

theorem small_of_kindOf {body : List Char} (h : kindOf text body = .ok (.slice slice)) :
    slice.Small := by
  rw [kindOf] at h
  split at h
  · split at h <;> cases h
  · split at h
    · split at h <;> cases h
    · split at h
      · cases h
      · split at h
        · next hread =>
          cases h
          exact Slice.small_of_read? hread
        · cases h

/-- The parts of a slice that has been read have 64 bits. -/
theorem small_of_read (hread : read text = .ok selector) (hslice : selector.slice? = some slice) :
    slice.Small := by
  obtain ⟨kind, hkind, hselector⟩ := bind_eq_ok.mp hread
  cases hselector
  cases kind with
  | slice other =>
    obtain rfl : other = slice := Option.some.inj hslice
    exact small_of_kindOf hkind
  | name | position | wildcard | pattern => cases hslice

/-- the columns at the places of a slice -/
def sliced (slice : Slice) (columns : List String) : List String :=
  (slice.places columns.length).filterMap (columns[·]?)

theorem select_slice (hslice : selector.slice? = some slice) :
    selector.select columns =
      (do return (← slice.positions columns.length).filterMap (columns[·]?)) := by
  obtain ⟨body, negated, optional, kind⟩ := selector
  cases kind with
  | slice other =>
    obtain rfl : other = slice := Option.some.inj hslice
    rfl
  | name | position | wildcard | pattern => cases hslice

/-- A slice that has its places finds the columns there, of which there must be one unless it is
optional. -/
theorem apply_of_positions (hname : text ∉ columns) (hread : read text = .ok selector)
    (hslice : selector.slice? = some slice)
    (hplaces : slice.positions columns.length = .ok (slice.places columns.length)) :
    apply columns selected text =
      if sliced slice columns = [] ∧ selector.optional = false then
        .error (.unknownColumn selector.body)
      else .ok (Meaning.take selected ⟨!selector.negated, sliced slice columns⟩) := by
  have hselect : selector.select columns = .ok (sliced slice columns) := by
    rw [select_slice hslice, hplaces]
    rfl
  rw [apply_of_read hname hread, selectSome_of_ok hselect]
  split <;> rfl

/-- A slice that leads too far stops the run. -/
theorem apply_of_leadsTooFar (hname : text ∉ columns) (hread : read text = .ok selector)
    (hslice : selector.slice? = some slice) (hfar : slice.LeadsTooFar columns.length) :
    apply columns selected text = .error (.of .overflow) := by
  rw [apply_of_read hname hread, selectSome, select_slice hslice, Slice.positions_overflow hfar]
  rfl

/-- **The columns of a slice.** No sum on the way to the places of a slice that has been read leads
beyond 64 bits, except that the step ahead from a place may. If none does, all places lie inside the
list of columns, and the slice selects the columns there or lacks what it must find; if one does,
the run stops. -/
theorem apply_slice (hlength : (columns.length : Int) ≤ Binary64.maxSigned)
    (hname : text ∉ columns) (hread : read text = .ok selector)
    (hslice : selector.slice? = some slice) (hstep : slice.distance ≠ 0)
    (selected : List String) :
    slice.checkedPositions columns.length = slice.positions columns.length ∧
    (¬slice.LeadsTooFar columns.length →
      slice.positions columns.length = .ok (slice.places columns.length) ∧
      (∀ place ∈ slice.places columns.length, place < columns.length) ∧
      apply columns selected text =
        if sliced slice columns = [] ∧ selector.optional = false then
          .error (.unknownColumn selector.body)
        else .ok (Meaning.take selected ⟨!selector.negated, sliced slice columns⟩)) ∧
    (slice.LeadsTooFar columns.length →
      slice.positions columns.length = .error (.of .overflow) ∧
      apply columns selected text = .error (.of .overflow)) ∧
    ((columns.length : Int) + slice.distance ≤ Binary64.maxSigned + 1 →
      ¬slice.LeadsTooFar columns.length) := by
  have hsmall := small_of_read hread hslice
  refine ⟨Slice.checkedPositions_eq hsmall hlength, fun hnear => ?_, fun hfar => ?_,
    Slice.not_leadsTooFar⟩
  · have hplaces := Slice.positions_eq_places hstep ((Slice.stepsFit_iff hsmall hlength).mpr hnear)
    exact ⟨hplaces, fun place hplace => (Slice.mem_places.mp hplace).1,
      apply_of_positions hname hread hslice hplaces⟩
  · exact ⟨Slice.positions_overflow hfar, apply_of_leadsTooFar hname hread hslice hfar⟩

/-- from the last place back by the least step -/
def fromLastBack : Slice := ⟨some (-1), none, some (-9223372036854775808)⟩

/-- The step back from the last place stays within 64 bits. -/
theorem apply_slice_fromLastBack :
    ((["a", "b", "c"].length : Nat) : Int) ≤ Binary64.maxSigned ∧
      "-1::-9223372036854775808" ∉ ["a", "b", "c"] ∧
      read "-1::-9223372036854775808" =
        .ok ⟨"-1::-9223372036854775808", false, false, .slice fromLastBack⟩ ∧
      fromLastBack.distance ≠ 0 ∧ ¬fromLastBack.LeadsTooFar 3 ∧
      fromLastBack.checkedPositions 3 = fromLastBack.positions 3 ∧
      fromLastBack.positions 3 = .ok (fromLastBack.places 3) ∧
      (∀ place ∈ fromLastBack.places 3, place < 3) ∧
      apply ["a", "b", "c"] ["a"] "-1::-9223372036854775808" =
        .ok (Meaning.take ["a"] ⟨true, sliced fromLastBack ["a", "b", "c"]⟩) := by
  have hread : read "-1::-9223372036854775808" =
      .ok ⟨"-1::-9223372036854775808", false, false, .slice fromLastBack⟩ := by
    rfl
  have hnear : ¬fromLastBack.LeadsTooFar 3 := by decide +kernel
  have hname : "-1::-9223372036854775808" ∉ ["a", "b", "c"] := by decide
  obtain ⟨hchecked, hresult, -⟩ := apply_slice (by decide) hname hread rfl (by decide) ["a"]
  obtain ⟨hplaces, hinside, happly⟩ := hresult hnear
  refine ⟨by decide, hname, hread, by decide, hnear, hchecked, hplaces, hinside, ?_⟩
  rw [happly, if_neg (by decide +kernel)]
  rfl

/-- A step ahead leads beyond 64 bits: the column it starts from is not selected, either. -/
theorem slice_leads_too_far :
    expand ["a", "b"] ["1::9223372036854775807"] = .error (.of .overflow) ∧
      ((read "1::9223372036854775807").toOption.bind slice?) =
        some ⟨some 1, none, some 9223372036854775807⟩ := by
  decide +kernel

end Selector

end TableRecipe
