import Mathlib.Algebra.Order.Field.Basic
import TableRecipe.Proofs.Connector.SampleTemplates
import TableRecipe.Proofs.Number.Hundredths

/-!
# Cells between bounds

A floating-point number that is drawn between two bounds is brought to two places, and nothing keeps
it between the bounds then. But the places keep the order of numbers. So it is enough to look at the
cells of the two bounds; these are the bounds again if the bounds have no more than two places.

* `Sample.Template.Always` — what holds of the cells of a template, whatever is drawn;
* `Sample.Exact`, `Sample.Denotes` — the value of a cell, exactly and as it is written;
* `Sample.within_between` — a number between two others has a cell between theirs;
* `Sample.Bound.Short.value_eq` — bounds of two places keep their places;
* `Sample.cells_within_iff` — when the cells of a template stay within its bounds.
-/

namespace TableRecipe

/-! ## Draws -/

/-- draws whose floating-point numbers are defined -/
def Draws.Defined (draws : Draws) : Prop := ∀ drawn low high, low.isFinite → high.isFinite →
  low.compare? high ≠ some .gt → draws.decimal drawn low high ≠ .undefined

/-- takes a number wherever it lies between the bounds, else the least one -/
def Draws.toward (x : Binary64) : Draws where
  integer _ low _ := low
  decimal _ low high := if low.compare? x ≠ some .gt ∧ x.compare? high ≠ some .gt then x else low
  integer_mem := Draws.least.integer_mem
  decimal_mem drawn low high h := by
    split
    · next hbetween => exact hbetween
    · exact Draws.least.decimal_mem drawn low high h

theorem Binary64.ne_undefined {x : Binary64} (h : x.isFinite) : x ≠ .undefined := by
  rintro rfl
  cases h

theorem Draws.defined_least : Draws.least.Defined := fun _ _ _ hlow _ _ =>
  Binary64.ne_undefined hlow

theorem Draws.defined_toward {x : Binary64} (h : x.isFinite) : (Draws.toward x).Defined := by
  intro drawn low high hlow _ _
  rw [toward]
  dsimp only
  split
  · exact Binary64.ne_undefined h
  · exact Binary64.ne_undefined hlow

namespace Binary64

/-- the value of a finite number -/
def exact (negative : Bool) (units : Nat) : ℚ := signed negative units / one

theorem exact_mono {n m : Bool} {a b : Nat} (h : signed n a ≤ signed m b) :
    exact n a ≤ exact m b :=
  div_le_div_of_nonneg_right (Int.cast_le.mpr h) (Nat.cast_nonneg one)

end Binary64

namespace Sample

open Binary64 (signed one bound nearestWhole hundredths roundedToPlaces)

variable {P : Value → Prop} {n m k : Bool} {a b w : Nat} {least greatest : ℚ}

/-- whether a template gives a cell that has a property, whatever is drawn -/
def Template.Always (template : Template) (P : Value → Prop) : Prop :=
  ∀ (context : Context) (world : World), context.random.Defined →
    ∃ cell after, (generate template).runIn context world = (.ok cell, after) ∧ P cell

theorem always_integer {first last : Int} (h : first ≤ last)
    (hcell : ∀ n, first ≤ n → n ≤ last → P (.ofInt n)) :
    (Template.integer first last).Always P := by
  intro context world _
  obtain ⟨hlow, hhigh⟩ := context.random.integer_mem world.draws first last h
  exact ⟨_, _, rfl, hcell _ hlow hhigh⟩

theorem run_decimal (low high : Binary64) (context : Context) (world : World) :
    (generate (.decimal low high)).runIn context world =
      (.ok (toPlaces (context.random.decimal world.draws low high)),
        { world with draws := world.draws + 1 }) := rfl

/-- Every number between the bounds may be drawn, and no other one. -/
theorem always_decimal_iff (h : signed n a ≤ signed m b) :
    (Template.decimal (.finite n a) (.finite m b)).Always P ↔
      ∀ k w, signed n a ≤ signed k w → signed k w ≤ signed m b → P (toPlaces (.finite k w)) := by
  constructor
  · intro halways k w hlow hhigh
    obtain ⟨cell, after, hrun, hcell⟩ := halways { random := Draws.toward (.finite k w) } {}
      (Draws.defined_toward rfl)
    have hdrawn : (Draws.toward (.finite k w)).decimal 0 (.finite n a) (.finite m b) =
        .finite k w := if_pos ⟨Binary64.compare?_ne_gt_iff.mpr hlow,
          Binary64.compare?_ne_gt_iff.mpr hhigh⟩
    rw [run_decimal, hdrawn] at hrun
    obtain rfl := Except.ok.inj (Prod.mk.inj hrun).1
    exact hcell
  · intro hcell context world hdefined
    have horder : (Binary64.finite n a).compare? (.finite m b) ≠ some .gt :=
      Binary64.compare?_ne_gt_iff.mpr h
    obtain ⟨hlow, hhigh⟩ := context.random.decimal_mem world.draws _ _ horder
    obtain ⟨k, w, hdrawn, hlow, hhigh⟩ := Binary64.exists_between
      (hdefined world.draws _ _ rfl rfl horder) hlow hhigh
    rw [run_decimal, hdrawn]
    exact ⟨_, _, rfl, hcell k w hlow hhigh⟩

/-! ## Cells -/

/-- a cell is a number, and its value -/
inductive Exact : Value → ℚ → Prop
  /-- an integer -/
  | integer (n : Int) : Exact (.ofInt n) n
  /-- a floating-point number -/
  | decimal (negative : Bool) (units : Nat) :
    Exact (.number (.decimal (.finite negative units))) (Binary64.exact negative units)

/-- the cell is an integer, or the floating-point number nearest to so many hundredths -/
def Denotes (cell : Value) (q : ℚ) : Prop :=
  (∃ n : Int, cell = .ofInt n ∧ q = n) ∨
    ∃ negative k, cell = .ofBinary64 (.ofRatio negative k 100) ∧ q = signed negative k / 100

/-- the cell has a value that lies between two numbers -/
def Within (means : Value → ℚ → Prop) (least greatest : ℚ) (cell : Value) : Prop :=
  ∃ q, means cell q ∧ least ≤ q ∧ q ≤ greatest

/-- the cells of the two bounds of a template -/
def Template.ends : Template → List Value
  | .integer low high => [.ofInt low, .ofInt high]
  | .decimal low high => [toPlaces low, toPlaces high]
  | _ => []

theorem toPlaces_of_lt (h : nearestWhole (100 * w) < bound) :
    toPlaces (.finite k w) = .ofBinary64 (.ofRatio k (hundredths w) 100) := by
  rw [toPlaces, Binary64.toPlaces_eq h]

theorem toPlaces_of_not_lt (h : ¬nearestWhole (100 * w) < bound) :
    toPlaces (.finite k w) = .null := by
  rw [toPlaces, Binary64.times_hundred, if_neg h]
  rfl

theorem exact_toPlaces_iff {q : ℚ} : Exact (toPlaces (.finite k w)) q ↔
    nearestWhole (100 * w) < bound ∧ q = Binary64.exact k (roundedToPlaces w) := by
  by_cases h : nearestWhole (100 * w) < bound
  · rw [toPlaces_of_lt h, Binary64.ofRatio_hundredths h]
    constructor
    · rintro ⟨⟩
      exact ⟨h, rfl⟩
    · rintro ⟨-, rfl⟩
      exact .decimal k (roundedToPlaces w)
  · rw [toPlaces_of_not_lt h]
    constructor
    · rintro ⟨⟩
    · exact fun hlt => absurd hlt.1 h

/-- A number between two others has a cell between theirs. -/
theorem within_between (hlow : signed n a ≤ signed k w) (hhigh : signed k w ≤ signed m b)
    (hfirst : Within Exact least greatest (toPlaces (.finite n a)))
    (hlast : Within Exact least greatest (toPlaces (.finite m b))) :
    Within Exact least greatest (toPlaces (.finite k w)) := by
  obtain ⟨first, hfirst, hleast, -⟩ := hfirst
  obtain ⟨last, hlast, -, hgreatest⟩ := hlast
  obtain ⟨ha, rfl⟩ := exact_toPlaces_iff.mp hfirst
  obtain ⟨hb, rfl⟩ := exact_toPlaces_iff.mp hlast
  have hmono {n m : Bool} {a b : Nat} (h : signed n a ≤ signed m b) :
      Binary64.exact n (roundedToPlaces a) ≤ Binary64.exact m (roundedToPlaces b) :=
    Binary64.exact_mono
      (Binary64.signed_mono Binary64.roundedToPlaces_mono Binary64.roundedToPlaces_zero h)
  have hbound : nearestWhole (100 * w) < bound := by
    rcases Binary64.le_of_between hlow hhigh with hle | hle
    · exact (Binary64.nearestWhole_mono (Nat.mul_le_mul_left 100 hle)).trans_lt ha
    · exact (Binary64.nearestWhole_mono (Nat.mul_le_mul_left 100 hle)).trans_lt hb
  exact ⟨_, exact_toPlaces_iff.mpr ⟨hbound, rfl⟩, hleast.trans (hmono hlow),
    (hmono hhigh).trans hgreatest⟩

/-- The cells of floating-point numbers stay within two numbers if those of the bounds do. -/
theorem always_within_iff (h : signed n a ≤ signed m b) :
    (Template.decimal (.finite n a) (.finite m b)).Always (Within Exact least greatest) ↔
      ∀ cell ∈ (Template.decimal (.finite n a) (.finite m b)).ends,
        Within Exact least greatest cell := by
  rw [always_decimal_iff h, Template.ends, List.forall_mem_cons, List.forall_mem_singleton]
  exact ⟨fun hcell => ⟨hcell n a le_rfl h, hcell m b h le_rfl⟩,
    fun hends k w hlow hhigh => within_between hlow hhigh hends.1 hends.2⟩

/-! ## Bounds of two places -/

/-- a bound of at most two places, and not too great -/
structure Bound.Short (edge : Bound) : Prop where
  /-- there are at most two digits after the point -/
  places : edge.fraction.length ≤ 2
  /-- the magnitude is at most `2 ^ 44` -/
  magnitude : |edge.value| ≤ 2 ^ 44

namespace Bound.Short

variable {edge : Bound}

theorem digits_le (h : edge.Short) : edge.digits ≤ 10 ^ edge.fraction.length * 2 ^ 44 := by
  have hpos : (0 : ℚ) < 10 ^ edge.fraction.length := pow_pos (by norm_num) _
  have habs : |(signed edge.negative edge.digits : ℚ)| = edge.digits := by
    rw [← Int.cast_abs, Int.abs_eq_natAbs, Binary64.natAbs_signed, Int.cast_natCast]
  have hmagnitude := h.magnitude
  rw [value, abs_div, abs_of_pos hpos, habs, div_le_iff₀' hpos] at hmagnitude
  exact_mod_cast hmagnitude

/-- Such a bound is read to a number whose hundredths are those of the bound. -/
theorem value_eq (h : edge.Short) (hnumber : edge.number = .finite n a) :
    edge.value = signed n (hundredths a) / 100 ∧ a ≤ 2 ^ 44 * one := by
  have hratio : edge.number =
      .ofRatio edge.negative edge.digits (10 ^ edge.fraction.length) :=
    Binary64.ofScientific_places (h.places.trans (by decide)) _ _
  have hden : 0 < 10 ^ edge.fraction.length := Nat.pow_pos (by decide)
  have hpow : 10 ^ (2 - edge.fraction.length) * 10 ^ edge.fraction.length = 100 := by
    rw [← Nat.pow_add, Nat.sub_add_cancel h.places]
  have hscale : edge.digits * 100 =
      edge.digits * 10 ^ (2 - edge.fraction.length) * 10 ^ edge.fraction.length := by
    rw [Nat.mul_assoc, hpow]
  rw [hnumber, Binary64.ofRatio_eq] at hratio
  split at hratio
  · obtain ⟨rfl, rfl⟩ := Binary64.finite.inj hratio
    refine ⟨?_, Binary64.nearestQuotient_le_of_small hden h.digits_le⟩
    rw [Binary64.hundredths_eq hden hscale h.digits_le, value, Binary64.signed_mul]
    have hcast : (10 : ℚ) ^ (2 - edge.fraction.length) * 10 ^ edge.fraction.length = 100 :=
      mod_cast hpow
    rw [← hcast, Int.cast_mul, Int.cast_natCast, Nat.cast_pow, Nat.cast_ofNat,
      mul_comm (10 ^ (2 - _)), mul_div_mul_right _ _ (pow_ne_zero _ (by norm_num))]
  · cases hratio

end Bound.Short

/-- A cell is drawn to so many hundredths. -/
theorem denotes_toPlaces (h : w ≤ 2 ^ 44 * one) :
    Denotes (toPlaces (.finite k w)) (signed k (hundredths w) / 100) :=
  .inr ⟨k, hundredths w, toPlaces_of_lt (Binary64.nearestWhole_hundred_lt h), rfl⟩

theorem always_denotes {low high : Bound} (hlow : low.Short) (hhigh : high.Short)
    (hfirst : low.number = .finite n a) (hlast : high.number = .finite m b)
    (h : signed n a ≤ signed m b) :
    (Template.decimal (.finite n a) (.finite m b)).Always
      (Within Denotes low.value high.value) := by
  obtain ⟨hleast, ha⟩ := hlow.value_eq hfirst
  obtain ⟨hgreatest, hb⟩ := hhigh.value_eq hlast
  have hmono {n m : Bool} {a b : Nat} (h : signed n a ≤ signed m b) :
      (signed n (hundredths a) : ℚ) / 100 ≤ signed m (hundredths b) / 100 :=
    div_le_div_of_nonneg_right (Int.cast_le.mpr
      (Binary64.signed_mono Binary64.hundredths_mono Binary64.hundredths_zero h)) (by norm_num)
  refine (always_decimal_iff h).mpr fun k w hle hge => ?_
  have hw : w ≤ 2 ^ 44 * one := (Binary64.le_of_between hle hge).elim ha.trans' hb.trans'
  exact ⟨_, denotes_toPlaces hw, hleast.trans_le (hmono hle), (hmono hge).trans_eq hgreatest.symm⟩

/-! ## Templates -/

/-- the template with two bounds -/
def between (low high : Bound) : Template := templateOf (.string (rangeText low high))

/-- **Bounds.** The cells of a template with two bounds stay within them exactly if those of the
bounds do. This is so for integers of 64 bits; and bounds of at most two places have cells of two
places that lie between them. -/
theorem cells_within_iff (low high : Bound) (h : ∀ error, between low high ≠ .invalid error) :
    ((between low high).Always (Within Exact low.value high.value) ↔
      ∀ cell ∈ (between low high).ends, Within Exact low.value high.value cell) ∧
    ((integer? low.text).isSome → (integer? high.text).isSome →
      (between low high).Always (Within Exact low.value high.value)) ∧
    (low.Short → high.Short → (between low high).Always (Within Denotes low.value high.value)) := by
  rw [between, templateOf_rangeText] at h ⊢
  rcases ranged_accepted h with
    ⟨first, last, hle, hlow, hhigh, heq⟩ | ⟨hnone, n, a, m, b, hlow, hhigh, hle, heq⟩
  · rw [heq, hlow, hhigh]
    have hcells : (Template.integer first last).Always (Within Exact first last) :=
      always_integer hle fun n hfirst hlast => ⟨n, .integer n, mod_cast hfirst, mod_cast hlast⟩
    refine ⟨⟨fun _ => ?_, fun _ => hcells⟩, fun _ _ => hcells, fun _ _ => ?_⟩
    · rw [Template.ends, List.forall_mem_cons, List.forall_mem_singleton]
      exact ⟨⟨first, .integer first, le_rfl, mod_cast hle⟩,
        last, .integer last, mod_cast hle, le_rfl⟩
    · exact always_integer hle fun n hfirst hlast =>
        ⟨n, .inl ⟨n, rfl, rfl⟩, mod_cast hfirst, mod_cast hlast⟩
  · rw [heq]
    refine ⟨always_within_iff hle, fun hfirst hlast => ?_,
      fun hfirst hlast => always_denotes hfirst hlast hlow hhigh hle⟩
    rcases hnone with hnone | hnone
    · rw [hnone] at hfirst
      cases hfirst
    · rw [hnone] at hlast
      cases hlast

/-- the bound `1` -/
def unit : Bound := ⟨false, ['1'], [], by decide, List.all_eq_true.mp rfl⟩

/-- the bound `2.5` -/
def twoAndHalf : Bound := ⟨false, ['2'], ['5'], by decide, List.all_eq_true.mp rfl⟩

theorem cells_within_iff_unit_twoAndHalf :
    rangeText unit twoAndHalf = "<number(1-2.5)>" ∧
      (∀ error, between unit twoAndHalf ≠ .invalid error) ∧
      (between unit twoAndHalf).Always (Within Denotes 1 (5 / 2)) := by
  have htemplate : between unit twoAndHalf =
      .decimal (.ofRatio false 1 1) (.ofRatio false 25 10) := by decide +kernel
  have haccepted : ∀ error, between unit twoAndHalf ≠ .invalid error := by
    rw [htemplate]
    exact fun error => Template.noConfusion
  have hunit : unit.value = 1 := by
    have hdigits : unit.digits = 1 := by decide
    rw [Bound.value, hdigits]
    norm_num [unit, signed]
  have hhalf : twoAndHalf.value = 5 / 2 := by
    have hdigits : twoAndHalf.digits = 25 := by decide
    rw [Bound.value, hdigits]
    norm_num [twoAndHalf, signed]
  have hcells := (cells_within_iff unit twoAndHalf haccepted).2.2
  rw [hunit, hhalf] at hcells
  refine ⟨by decide, haccepted, hcells ⟨by decide, ?_⟩ ⟨by decide, ?_⟩⟩
  · rw [hunit, abs_one]
    norm_num
  · rw [hhalf, abs_of_pos] <;> norm_num

/-- the bound `0.001` -/
def thousandth : Bound := ⟨false, ['0'], ['0', '0', '1'], by decide, List.all_eq_true.mp rfl⟩

/-- the bound `0.004` -/
def fourThousandths : Bound := ⟨false, ['0'], ['0', '0', '4'], by decide, List.all_eq_true.mp rfl⟩

/-- Thousandths may have no hundredths between them: a cell is zero, which is less than both. -/
theorem zero_between_thousandths :
    rangeText thousandth fourThousandths = "<number(0.001-0.004)>" ∧
      0 < thousandth.value ∧ thousandth.value ≤ fourThousandths.value ∧
      ((generate (between thousandth fourThousandths)).runIn {} {}).1 =
        .ok (.ofBinary64 (.finite false 0)) ∧
      ¬(between thousandth fourThousandths).Always
        (Within Exact thousandth.value fourThousandths.value) := by
  have hleast : thousandth.value = 1 / 1000 := by
    have hdigits : thousandth.digits = 1 := by decide
    rw [Bound.value, hdigits]
    norm_num [thousandth, signed]
  have hgreatest : fourThousandths.value = 1 / 250 := by
    have hdigits : fourThousandths.digits = 4 := by decide
    rw [Bound.value, hdigits]
    norm_num [fourThousandths, signed]
  have hrun : ((generate (between thousandth fourThousandths)).runIn {} {}).1 =
      .ok (.ofBinary64 (.finite false 0)) := by
    decide +kernel
  refine ⟨by decide, by rw [hleast]; norm_num, by rw [hleast, hgreatest]; norm_num, hrun, ?_⟩
  intro halways
  obtain ⟨cell, after, hcell, q, hexact, hle, -⟩ := halways {} {} Draws.defined_least
  rw [hcell] at hrun
  obtain rfl := Except.ok.inj hrun
  cases hexact
  have hzero : Binary64.exact false 0 = 0 := by
    rw [Binary64.exact, signed, if_neg Bool.false_ne_true, Int.cast_natCast, Nat.cast_zero,
      zero_div]
  rw [hleast, hzero] at hle
  norm_num at hle

end Sample

end TableRecipe
