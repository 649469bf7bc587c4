import TableRecipe.Condition.Evaluate
import TableRecipe.Proofs.Condition.FilledLists

/-!
# Rows that a condition selects

How far a condition is true in a row is a degree: 1 if it is true, -1 if it is false, and 0 if that
is unknown. `OR` takes the greatest degree and `AND` the least one, `NOT` the opposite. The derived
forms are what they stand for: `IN` an `OR` of equations, `BETWEEN` an `AND` of two comparisons, and
each denied form the `NOT` of the form that it denies.

A table is filtered a little more strictly: `BETWEEN` is unknown as soon as one of its comparisons
is, even if the other one fails. That only ever makes degrees unknown, so no row is selected that
should not be; and it only shows below a denial.

* `Condition.degree` — the degree to which a condition is true in a row;
* `Condition.boundsDecide` — whether no denied `BETWEEN` fails with one comparison unknown;
* `Condition.degree_eval` — what the truth of a condition is, exactly;
* `Condition.selected_iff` — the rows that a condition selects.
-/

namespace TableRecipe

/-! ## Degrees -/

namespace Truth

variable {a b truth : Truth} {negated : Bool}

/-- the degree of a truth value -/
def degree : Truth → Int
  | some true => 1
  | none => 0
  | some false => -1

/-- the opposite degree if asked for -/
def denied (negated : Bool) (degree : Int) : Int := if negated then -degree else degree

theorem degree_or : (Truth.or a b).degree = max a.degree b.degree := by
  rcases a with _ | (_ | _) <;> rcases b with _ | (_ | _) <;> rfl

theorem degree_and : (Truth.and a b).degree = min a.degree b.degree := by
  rcases a with _ | (_ | _) <;> rcases b with _ | (_ | _) <;> rfl

theorem degree_not : truth.not.degree = -truth.degree := by
  rcases truth with _ | (_ | _) <;> rfl

theorem degree_negateIf : (negateIf negated truth).degree = denied negated truth.degree := by
  rcases truth with _ | (_ | _) <;> cases negated <;> rfl

theorem degree_eq_one : truth.degree = 1 ↔ truth = some true := by
  rcases truth with _ | (_ | _) <;> simp [degree]

theorem degree_bounds (truth : Truth) : -1 ≤ truth.degree ∧ truth.degree ≤ 1 := by
  rcases truth with _ | (_ | _) <;> decide

end Truth

namespace Condition

open Truth

variable {row : String → Value} {join : Int → Int → Int} {value : Value} {items : List Value}
  {condition : Condition Operand} {bound c : Condition Term}

/-- the degree of a comparison: unknown exactly if the values have no order -/
def comparison (kind : Comparison) (left right : Value) : Int :=
  match left.order? right with
  | some order => if kind.holds order then 1 else -1
  | none => 0

/-- the degree to which one of several conditions is true -/
def anyOf (degrees : List Int) : Int := degrees.foldr max (-1)

/-- the degree to which a condition is true in a row, given how the two comparisons of `BETWEEN` are
joined -/
def degreeWith (join : Int → Int → Int) (row : String → Value) : Condition Term → Int
  | or left right => max (left.degreeWith join row) (right.degreeWith join row)
  | and left right => min (left.degreeWith join row) (right.degreeWith join row)
  | not inner => -inner.degreeWith join row
  | compare left operator right => comparison (.ofOperator operator) (left.value row) (right.value row)
  | among value items negated =>
    denied negated (anyOf (items.map fun item => comparison .equal (value.value row) (item.value row)))
  | like value pattern negated =>
    denied negated (Truth.degree ((value.value row).like? (pattern.value row)))
  | between value low high negated =>
    denied negated (join (comparison .greaterEqual (value.value row) (low.value row))
      (comparison .lessEqual (value.value row) (high.value row)))
  | isNull value negated => denied negated (if (value.value row).isNull then 1 else -1)
  | truth value => Truth.degree (value.value row).truth?

/-- the degree to which a condition is true in a row: `BETWEEN` joins its comparisons as `AND`
does -/
def degree : (row : String → Value) → Condition Term → Int := degreeWith min

/-- the lesser of two degrees, unknown as soon as one of them is -/
def lesserKnown (a b : Int) : Int := if a = 0 ∨ b = 0 then 0 else min a b

/-- whether no `BETWEEN` that is denied, by a `NOT` of its own or by an odd number of those around
it, has one comparison unknown while the other one fails -/
def boundsDecide (row : String → Value) : (denied : Bool) → Condition Term → Bool
  | denied, or left right | denied, and left right =>
    left.boundsDecide row denied && right.boundsDecide row denied
  | denied, not inner => inner.boundsDecide row !denied
  | denied, between value low high negated =>
    let above := comparison .greaterEqual (value.value row) (low.value row)
    let below := comparison .lessEqual (value.value row) (high.value row)
    denied == negated || !(above = 0 && below = -1 || above = -1 && below = 0)
  | _, _ => true

/-! ## What the truth of a condition is -/

theorem degree_order? (kind : Comparison) (left right : Value) :
    Truth.degree ((left.order? right).map kind.holds) = comparison kind left right := by
  rw [comparison]
  rcases left.order? right with _ | order
  · rfl
  · cases hholds : kind.holds order <;> simp [Truth.degree, hholds]

theorem comparison_bounds (kind : Comparison) (left right : Value) :
    -1 ≤ comparison kind left right ∧ comparison kind left right ≤ 1 := by
  rw [← degree_order?]
  exact degree_bounds _

/-- A null is compared with nothing. -/
theorem comparison_of_isNull (kind : Comparison) (h : value.isNull) (other : Value) :
    comparison kind value other = 0 := by
  simp [comparison, Value.order?, h]

theorem anyOf_cons (first : Int) (rest : List Int) :
    anyOf (first :: rest) = max first (anyOf rest) := rfl

theorem anyOf_bounds {degrees : List Int} (h : ∀ degree ∈ degrees, degree ≤ 1) :
    -1 ≤ anyOf degrees ∧ anyOf degrees ≤ 1 := by
  induction degrees with
  | nil => decide
  | cons first rest ih =>
    obtain ⟨hfirst, hrest⟩ := List.forall_mem_cons.mp h
    have := ih hrest
    rw [anyOf_cons]
    omega

/-- One of nothing but unknown conditions is unknown. -/
theorem anyOf_unknown {degrees : List Int} (hne : degrees ≠ []) (h : ∀ degree ∈ degrees, degree = 0) :
    anyOf degrees = 0 := by
  induction degrees with
  | nil => exact absurd rfl hne
  | cons first rest ih =>
    obtain ⟨rfl, hrest⟩ := List.forall_mem_cons.mp h
    rw [anyOf_cons]
    cases rest with
    | nil => rfl
    | cons second more =>
      rw [ih (List.cons_ne_nil _ _) hrest]
      rfl

/-- A list is searched up to the first equal value, with the same result as if every equation had
been joined by `OR`. -/
theorem degree_amongTruth (value : Value) (items : List Value) :
    (amongTruth value items).degree = anyOf (items.map (comparison .equal value)) := by
  induction items with
  | nil => rfl
  | cons item rest ih =>
    have hbounds := degree_bounds (amongTruth value rest)
    rw [List.map_cons, anyOf_cons, ← ih, amongTruth, comparison]
    rcases value.order? item with _ | order
    · -- unknown, unless a later value is equal
      rcases amongTruth value rest with _ | (_ | _) <;> rfl
    · cases order with
      | eq => exact (Int.max_eq_left hbounds.2).symm
      | lt => exact (Int.max_eq_right hbounds.1).symm
      | gt => exact (Int.max_eq_right hbounds.1).symm

/-- **The truth of a condition** is the degree to which it is true, but for `BETWEEN`, which is
unknown as soon as one of its comparisons is. -/
theorem degree_eval (hitems : c.HasItems) :
    (c.eval row).degree = c.degreeWith lesserKnown row := by
  induction c with
  | or left right hleft hright =>
    rw [eval, degree_or, hleft hitems.1, hright hitems.2, degreeWith]
  | and left right hleft hright =>
    rw [eval, degree_and, hleft hitems.1, hright hitems.2, degreeWith]
  | not inner ih => rw [eval, degree_not, ih hitems, degreeWith]
  | compare left operator right => exact degree_order? ..
  | among value items negated =>
    rw [eval, degreeWith]
    split
    · -- a null equals no item, and there is one
      rename_i hnull
      have hunknown : anyOf (items.map fun item =>
          comparison .equal (value.value row) (item.value row)) = 0 := by
        refine anyOf_unknown (mt List.map_eq_nil_iff.mp hitems) fun degree hdegree => ?_
        obtain ⟨item, -, rfl⟩ := List.mem_map.mp hdegree
        exact comparison_of_isNull _ hnull _
      rw [hunknown]
      cases negated <;> rfl
    · rw [degree_negateIf, degree_amongTruth, List.map_map]
      rfl
  | like value pattern negated => exact degree_negateIf
  | between value low high negated =>
    rw [eval, degreeWith, comparison, comparison]
    rcases (value.value row).order? (low.value row) with _ | above
    · cases negated <;> simp [Truth.degree, lesserKnown, denied]
    · rcases (value.value row).order? (high.value row) with _ | below
      · cases negated <;> simp [Truth.degree, lesserKnown, denied]
      · cases above <;> cases below <;> cases negated <;> rfl
  | isNull value negated =>
    rw [eval, degreeWith]
    cases (value.value row).isNull <;> cases negated <;> rfl
  | truth value => rfl

/-! ## Where it is stricter -/

theorem denied_bounds {negated : Bool} {degree : Int} (h : -1 ≤ degree ∧ degree ≤ 1) :
    -1 ≤ denied negated degree ∧ denied negated degree ≤ 1 := by
  rw [denied]
  split <;> omega

theorem degreeWith_bounds (row : String → Value) (hjoin : ∀ a b, -1 ≤ a ∧ a ≤ 1 → -1 ≤ b ∧ b ≤ 1 →
    -1 ≤ join a b ∧ join a b ≤ 1) (c : Condition Term) :
    -1 ≤ c.degreeWith join row ∧ c.degreeWith join row ≤ 1 := by
  induction c with
  | or left right hleft hright => rw [degreeWith]; omega
  | and left right hleft hright => rw [degreeWith]; omega
  | not inner ih => rw [degreeWith]; omega
  | compare left operator right => exact comparison_bounds ..
  | among value items negated =>
    refine denied_bounds (anyOf_bounds fun degree hdegree => ?_)
    obtain ⟨item, -, rfl⟩ := List.mem_map.mp hdegree
    exact (comparison_bounds ..).2
  | like value pattern negated => exact denied_bounds (degree_bounds _)
  | between value low high negated =>
    exact denied_bounds (hjoin _ _ (comparison_bounds ..) (comparison_bounds ..))
  | isNull value negated =>
    refine denied_bounds ?_
    split <;> decide
  | truth value => exact degree_bounds _

theorem lesserKnown_bounds (a b : Int) (ha : -1 ≤ a ∧ a ≤ 1) (hb : -1 ≤ b ∧ b ≤ 1) :
    -1 ≤ lesserKnown a b ∧ lesserKnown a b ≤ 1 := by
  rw [lesserKnown]
  split <;> omega

theorem min_bounds (a b : Int) (ha : -1 ≤ a ∧ a ≤ 1) (hb : -1 ≤ b ∧ b ≤ 1) :
    -1 ≤ min a b ∧ min a b ≤ 1 := by
  omega

theorem denied_inj {negated : Bool} {a b : Int} : denied negated a = denied negated b ↔ a = b := by
  cases negated <;> simp [denied]

theorem lesserKnown_eq_one {a b : Int} : lesserKnown a b = 1 ↔ min a b = 1 := by
  rw [lesserKnown]
  split <;> omega

/-- Where both comparisons are known, or neither fails, the stricter degree is the lesser one. -/
theorem lesserKnown_eq_min {a b : Int} (ha : -1 ≤ a ∧ a ≤ 1) (hb : -1 ≤ b ∧ b ≤ 1)
    (h : (a = 0 → b ≠ -1) ∧ (a = -1 → b ≠ 0)) : lesserKnown a b = min a b := by
  rw [lesserKnown]
  split <;> omega

/-- Where the stricter degree is known, it is the degree. -/
theorem degreeWith_lesserKnown (row : String → Value) (c : Condition Term) :
    c.degreeWith lesserKnown row = 0 ∨ c.degreeWith lesserKnown row = c.degree row := by
  have hbounds := degreeWith_bounds row min_bounds
  rw [degree]
  induction c with
  | or left right hleft hright =>
    have := hbounds left
    have := hbounds right
    rw [degreeWith, degreeWith]
    omega
  | and left right hleft hright =>
    have := hbounds left
    have := hbounds right
    rw [degreeWith, degreeWith]
    omega
  | not inner ih => rw [degreeWith, degreeWith]; omega
  | between value low high negated =>
    rw [degreeWith, degreeWith, lesserKnown]
    split
    · left
      cases negated <;> rfl
    · right
      rfl
  | _ => exact .inr rfl

/-- Where the bounds decide, a condition is true in the stricter sense if it is true, and a denied
one false if it is false. -/
theorem degreeWith_lesserKnown_iff {denied : Bool} (h : c.boundsDecide row denied) :
    c.degreeWith lesserKnown row = Truth.denied denied 1 ↔ c.degree row = Truth.denied denied 1 := by
  have hbounds := degreeWith_bounds row min_bounds
  have hbounds' := degreeWith_bounds row lesserKnown_bounds
  rw [degree]
  induction c generalizing denied with
  | or left right hleft hright =>
    rw [boundsDecide, Bool.and_eq_true] at h
    have hleft := hleft h.1
    have hright := hright h.2
    have := hbounds left
    have := hbounds right
    have := hbounds' left
    have := hbounds' right
    rw [degreeWith, degreeWith]
    cases denied <;> simp only [Truth.denied, if_true, Bool.false_eq_true, if_false] at * <;> omega
  | and left right hleft hright =>
    rw [boundsDecide, Bool.and_eq_true] at h
    have hleft := hleft h.1
    have hright := hright h.2
    have := hbounds left
    have := hbounds right
    have := hbounds' left
    have := hbounds' right
    rw [degreeWith, degreeWith]
    cases denied <;> simp only [Truth.denied, if_true, Bool.false_eq_true, if_false] at * <;> omega
  | not inner ih =>
    rw [boundsDecide] at h
    have ih := ih h
    rw [degreeWith, degreeWith]
    cases denied <;> simp [Truth.denied] at * <;> omega
  | between value low high negated =>
    have habove := comparison_bounds .greaterEqual (value.value row) (low.value row)
    have hbelow := comparison_bounds .lessEqual (value.value row) (high.value row)
    rw [degreeWith, degreeWith]
    by_cases hsame : denied = negated
    · -- not denied in the end: to be true, both comparisons must be known
      rw [hsame, denied_inj, denied_inj, lesserKnown_eq_one]
    · simp only [boundsDecide, beq_iff_eq, hsame, Bool.or_eq_true, false_or] at h
      rw [lesserKnown_eq_min habove hbelow (by simpa [← imp_iff_not_or] using h)]
  | _ => exact Iff.rfl

/-! ## The rows of a table -/

/-- **The rows that a condition selects.** Filtering a table succeeds as soon as the parameters are
filled in. A row is selected if and only if the condition is true there, a `BETWEEN` being unknown
as soon as one of its comparisons is. So the condition is true in every row that is selected; and
every row in which it is true is selected, unless a denied `BETWEEN` fails there with one comparison
unknown. -/
theorem selected_iff {table : Table} {params : Value} (hitems : condition.HasItems)
    (hbind : condition.bind table params = .ok bound) :
    ∃ mask, condition.mask table params = .ok mask ∧ mask.length = table.length ∧
      ∀ row < table.length,
        (mask[row]? = some true ↔ bound.degreeWith lesserKnown (table.cell · row) = 1) ∧
        (mask[row]? = some true → bound.degree (table.cell · row) = 1) ∧
        (bound.boundsDecide (table.cell · row) false → bound.degree (table.cell · row) = 1 →
          mask[row]? = some true) := by
  have hbound : bound.HasItems := hasItems_traverse hitems bound hbind
  refine ⟨_, bind_eq_ok.mpr ⟨bound, hbind, rfl⟩, by simp, fun row hrow => ?_⟩
  have hselected : ((List.range table.length).map fun row =>
      bound.eval (table.cell · row) == some true)[row]? = some true ↔
        bound.degreeWith lesserKnown (table.cell · row) = 1 := by
    rw [← degree_eval hbound, degree_eq_one]
    simp [hrow]
  refine ⟨hselected, fun h => ?_, fun hdecide htrue => ?_⟩
  · rcases degreeWith_lesserKnown (table.cell · row) bound with hzero | hsame
    · have hone := hselected.mp h
      omega
    · exact hsame ▸ hselected.mp h
  · exact hselected.mpr ((degreeWith_lesserKnown_iff hdecide).mpr htrue)

/-- readings and the least ones that are plausible, where they are known -/
def readings : Table where
  columns := [⟨"value", [.ofInt 5, .ofInt 12, .ofInt 12, .null]⟩,
    ⟨"least", [.ofInt 1, .ofInt 3, .null, .ofInt 3]⟩]
  index := [0, 1, 2, 3]

/-- the condition on readings that are out of range -/
def outOfRange : Condition Operand :=
  or (not (between (.column "value") (.column "least") (.literal (.ofInt 9)) false))
    (among (.column "value") [.literal (.ofInt 1), .column "least"] false)

/-- the condition with its columns found -/
def outOfRangeBound : Condition Term :=
  or (not (between (.column "value") (.column "least") (.literal (.ofInt 9)) false))
    (among (.column "value") [.literal (.ofInt 1), .column "least"] false)

theorem selected_iff_readings :
    read "NOT (value BETWEEN least AND 9) OR value IN (1, least)" = .ok outOfRange ∧
      outOfRange.HasItems ∧ outOfRange.bind readings .null = .ok outOfRangeBound ∧
      outOfRangeBound.boundsDecide (readings.cell · 1) false ∧
      outOfRangeBound.degree (readings.cell · 1) = 1 ∧
      ∃ mask, outOfRange.mask readings .null = .ok mask ∧ mask[1]? = some true := by
  have hread : read "NOT (value BETWEEN least AND 9) OR value IN (1, least)" = .ok outOfRange := by
    decide +kernel
  have hitems := hasItems_of_read outOfRange hread
  have hbind : outOfRange.bind readings .null = .ok outOfRangeBound := by decide +kernel
  have hdecide : outOfRangeBound.boundsDecide (readings.cell · 1) false := by decide +kernel
  have htrue : outOfRangeBound.degree (readings.cell · 1) = 1 := by decide +kernel
  obtain ⟨mask, hmask, -, hrows⟩ := selected_iff hitems hbind
  have hselected := (hrows 1 (by decide)).2.2 hdecide htrue
  exact ⟨hread, hitems, hbind, hdecide, htrue, mask, hmask, hselected⟩

/-- The third reading exceeds the greatest one, so it is out of range whatever the least one is. It
is not selected, though it is by the same condition with its comparisons written out. -/
theorem refuted_range_not_selected :
    read "NOT (value BETWEEN least AND 9) OR value IN (1, least)" = .ok outOfRange ∧
      outOfRange.bind readings .null = .ok outOfRangeBound ∧
      outOfRangeBound.degree (readings.cell · 2) = 1 ∧
      outOfRange.mask readings .null = .ok [false, true, false, false] ∧
      (read "NOT (value >= least AND value <= 9) OR value = 1 OR value = least" >>=
        fun spelledOut => spelledOut.mask readings .null) = .ok [false, true, true, false] := by
  decide +kernel

end Condition

end TableRecipe
