import TableRecipe.Proofs.Condition.Joined
import TableRecipe.Proofs.Table.Rows

/-!
# Filtering row by row

Whether a condition selects a row depends on the cells of that row alone. So the mask of some rows
of a table is that of the table at their positions; filtering twice by a condition is filtering
once; and filtering by two conditions, in either order, is filtering by both at once.

* `Table.RowsAt` — some rows of a table, with their labels;
* `Condition.mask_takeRows` — the mask of some rows;
* `Table.filterMask_filterMask` — filtering twice;
* `Condition.rowByRow` — the laws of filtering.
-/

namespace TableRecipe

variable {table : Table} {params : Value} {mask mask' : List Bool} {positions : List Nat}

/-! ## Rows at positions -/

namespace Table

/-- whether a table consists of the rows of another one at certain positions, with their labels -/
structure RowsAt (table : Table) (positions : List Nat) (part : Table) : Prop where
  /-- the columns are the same -/
  names : part.names = table.names
  /-- the date marks are the same -/
  dates : part.dates = table.dates
  /-- there is one row for every position -/
  length : part.length = positions.length
  /-- every row has the label of the row at its position -/
  labels : ∀ row : Nat, part.index[row]? = positions[row]?.bind (table.index[·]?)
  /-- every row has the cells of the row at its position -/
  cells : ∀ name row, part.cell? name row = positions[row]?.bind (table.cell? name)

theorem rowsAt_takeRows (hrectangular : table.Rectangular)
    (hpositions : ∀ position ∈ positions, position < table.length) :
    table.RowsAt positions (table.takeRows positions) where
  names := by simp [names, takeRows]
  dates := rfl
  length := by
    have hall : ∀ position ∈ positions, (table.index[position]?).isSome := by
      intro position hmem
      rw [List.getElem?_eq_getElem (hpositions position hmem)]
      rfl
    rw [Table.length, takeRows, List.length_filterMap_eq_countP, List.countP_eq_length.mpr hall]
  labels := getElem?_filterMap_getElem? hpositions
  cells := by
    intro name row
    have hcell : table.cell? name = fun row => (table.cells? name).bind (·[row]?) := rfl
    rw [cell?, cells?_takeRows, hcell]
    rcases hcells : table.cells? name with _ | cells
    · cases positions[row]? <;> rfl
    · have hlength := length_of_cells? hrectangular hcells
      exact getElem?_filterMap_getElem? (fun p hp => hlength ▸ hpositions p hp) row

/-- Rows of rows are rows. -/
theorem takeRows_takeRows (hrectangular : table.Rectangular)
    (hpositions : ∀ position ∈ positions, position < table.length) (places : List Nat) :
    (table.takeRows positions).takeRows places =
      table.takeRows (places.filterMap (positions[·]?)) := by
  have hitems {α : Type} (items : List α) (hlength : items.length = table.index.length) :
      places.filterMap ((positions.filterMap (items[·]?))[·]?) =
        (places.filterMap (positions[·]?)).filterMap (items[·]?) := by
    rw [List.filterMap_filterMap]
    refine List.filterMap_congr fun place _ => ?_
    exact getElem?_filterMap_getElem? (fun p hp => hlength ▸ hpositions p hp) place
  simp only [takeRows, List.map_map, hitems table.index rfl]
  congr 1
  refine List.map_congr_left fun column hcolumn => ?_
  simp only [Function.comp_apply, hitems column.cells (hrectangular column hcolumn)]

/-! ## Filtering twice -/

/-- The positions of a mask are those of the rows that it selects, in order. -/
theorem positionsOf_eq_filter (mask : List Bool) :
    positionsOf mask = (List.range mask.length).filter (mask.getD · false) := by
  have hpairs :
      mask.zipIdx = (List.range mask.length).map fun row => (mask.getD row false, row) := by
    refine List.ext_getElem (by simp) fun row hrow hrow' => ?_
    simp at hrow
    simp [hrow]
  rw [positionsOf, hpairs, List.filterMap_map, ← List.filterMap_eq_filter]
  rfl

theorem pairwise_positionsOf (mask : List Bool) : (positionsOf mask).Pairwise (· < ·) := by
  rw [positionsOf_eq_filter]
  exact List.pairwise_lt_range.filter _

/-- The rows that two masks select are those of the first that the second selects as well. -/
theorem positionsOf_both (h : mask.length = mask'.length) :
    positionsOf (List.zipWith (· && ·) mask mask') =
      (positionsOf mask).filter (mask'.getD · false) := by
  rw [positionsOf_eq_filter, positionsOf_eq_filter, List.filter_filter, List.length_zipWith, ← h,
    Nat.min_self]
  refine List.filter_congr fun row hrow => ?_
  have hlt := List.mem_range.mp hrow
  have hlt' := h ▸ hlt
  simp [hlt, hlt', Bool.and_comm]

/-- Of the rows at certain positions, those that a mask selects are at the positions at which it is
true. -/
theorem filterMap_positionsOf (select : Nat → Bool) (positions : List Nat) :
    (positionsOf (positions.map select)).filterMap (positions[·]?) = positions.filter select := by
  have hall : (List.range positions.length).filterMap (positions[·]?) = positions := by
    refine List.ext_getElem? fun row => ?_
    rw [getElem?_filterMap_getElem? fun _ => List.mem_range.mp]
    by_cases hrow : row < positions.length <;> simp [hrow]
  conv_rhs => rw [← hall]
  rw [positionsOf_eq_filter, List.length_map, List.filter_filterMap, List.filterMap_filter]
  refine List.filterMap_congr fun row hrow => ?_
  have hlt := List.mem_range.mp hrow
  simp [hlt, Option.filter]

/-- Filtering by a second mask what a first one selects is filtering by both. -/
theorem filterMask_filterMask (hrectangular : table.Rectangular)
    (hmask : mask.length = table.length) (hmask' : mask'.length = table.length) :
    (table.filterMask mask).filterMask ((positionsOf mask).map (mask'.getD · false)) =
      table.filterMask (List.zipWith (· && ·) mask mask') := by
  have hpositions : ∀ position ∈ positionsOf mask, position < table.length := by
    intro position hposition
    exact hmask ▸ (List.getElem?_eq_some_iff.mp (mem_positionsOf.mp hposition)).1
  rw [filterMask, filterMask, filterMask, takeRows_takeRows hrectangular hpositions,
    filterMap_positionsOf, positionsOf_both (hmask.trans hmask'.symm)]

end Table

namespace Condition

open Operand Table

variable {condition left right : Condition Operand} {first second : String}

/-! ## Masks of rows -/

theorem bind_takeRows (positions : List Nat) :
    condition.bind (table.takeRows positions) params = condition.bind table params := by
  have hoperand : bindOperand (table.takeRows positions) params = bindOperand table params := by
    funext operand
    have hhas (name : String) : (table.takeRows positions).has name = table.has name := by
      simp [has, takeRows, Function.comp_def]
    cases operand <;> simp [bindOperand, hhas]
  rw [bind, bind, hoperand]

/-- What a condition that binds selects. -/
theorem mask_of_bind {bound : Condition Term} (h : condition.bind table params = .ok bound) :
    condition.mask table params = .ok ((List.range table.length).map fun row =>
      bound.eval (table.cell · row) == some true) := by
  rw [Condition.mask, h]
  rfl

theorem length_of_mask (h : condition.mask table params = .ok mask) :
    mask.length = table.length := by
  obtain ⟨bound, -, h⟩ := bind_eq_ok.mp h
  obtain rfl := pure_eq_ok.mp h
  simp

/-- The mask of some rows is the mask of the table at their positions. -/
theorem mask_takeRows (hrectangular : table.Rectangular)
    (hpositions : ∀ position ∈ positions, position < table.length) :
    condition.mask (table.takeRows positions) params =
      (condition.mask table params).map fun mask => positions.map (mask.getD · false) := by
  have hrows := rowsAt_takeRows hrectangular hpositions
  rcases hbind : condition.bind table params with error | bound
  · rw [Condition.mask, Condition.mask, bind_takeRows, hbind]
    rfl
  · rw [mask_of_bind ((bind_takeRows positions).trans hbind), mask_of_bind hbind]
    refine congrArg Except.ok (List.ext_getElem (by simp [hrows.length]) fun row hrow hrow' => ?_)
    have hposition : row < positions.length := by simpa using hrow'
    have hlt : positions[row] < table.length := hpositions _ (List.getElem_mem hposition)
    have hcell : ((table.takeRows positions).cell · row) = (table.cell · positions[row]) := by
      funext name
      rw [cell, cell, hrows.cells, List.getElem?_eq_getElem hposition]
      rfl
    simp [hcell, hlt]

/-- A row is selected by two conditions joined by `AND` if it is by both. -/
theorem mask_and (hleft : left.mask table params = .ok mask)
    (hright : right.mask table params = .ok mask') :
    (and left right).mask table params = .ok (List.zipWith (· && ·) mask mask') := by
  obtain ⟨bound, hbound, hmask⟩ := bind_eq_ok.mp hleft
  obtain ⟨bound', hbound', hmask'⟩ := bind_eq_ok.mp hright
  obtain rfl := pure_eq_ok.mp hmask
  obtain rfl := pure_eq_ok.mp hmask'
  have hboth : (and left right).bind table params = .ok (and bound bound') :=
    bind_eq_ok.mpr ⟨bound, hbound, bind_eq_ok.mpr ⟨bound', hbound', rfl⟩⟩
  have htrue (a b : Truth) : (Truth.and a b == some true) = (a == some true && b == some true) := by
    rcases a with _ | (_ | _) <;> rcases b with _ | (_ | _) <;> rfl
  rw [mask_of_bind hboth, List.zipWith_map, List.zipWith_self]
  simp only [eval, htrue]

/-! ## Filtering -/

theorem filterText_of_read {text : String} (hread : read text = .ok condition)
    (hmask : condition.mask table params = .ok mask) :
    filterText table text params = .ok (table.filterMask mask) := by
  rw [filterText, hread]
  change condition.filter table params = _
  rw [filter, hmask]
  rfl

/-- What is left after filtering by one text and then by another. -/
theorem filterText_filterText (hrectangular : table.Rectangular) (hfirst : read first = .ok left)
    (hsecond : read second = .ok right) (hleft : left.mask table params = .ok mask)
    (hright : right.mask table params = .ok mask') :
    (do filterText (← filterText table first params) second params) =
      .ok (table.filterMask (List.zipWith (· && ·) mask mask')) := by
  have hpositions : ∀ position ∈ positionsOf mask, position < table.length :=
    fun position hposition => lt_of_mem_positionsOf hleft hposition
  have hmask : right.mask (table.filterMask mask) params =
      .ok ((positionsOf mask).map (mask'.getD · false)) := by
    rw [filterMask, mask_takeRows hrectangular hpositions, hright]
    rfl
  rw [filterText_of_read hfirst hleft,
    ← filterMask_filterMask hrectangular (length_of_mask hleft) (length_of_mask hright)]
  exact filterText_of_read hsecond hmask

/-- the laws of filtering a table row by row -/
structure RowByRow (table : Table) : Prop where
  /-- the mask of some rows is the mask of the table at their positions, for every condition -/
  mask_rows : ∀ (condition : Condition Operand) (params : Value) (positions : List Nat),
    (∀ position ∈ positions, position < table.length) →
    condition.mask (table.takeRows positions) params =
      (condition.mask table params).map fun mask => positions.map (mask.getD · false)
  /-- filtering twice by one text is filtering once -/
  twice : ∀ (text : String) (params : Value),
    (do filterText (← filterText table text params) text params) = filterText table text params
  /-- filtering by two texts, in either order, is filtering by both joined, if the first one has no
  parameters by place; what is left are the rows that both select, in order and with their labels -/
  both : ∀ (first second : String) (left right : Condition Operand) (params : Value)
    (mask mask' : List Bool), read first = .ok left → read second = .ok right →
    places left.operands = [] → left.mask table params = .ok mask →
    right.mask table params = .ok mask' →
    ∃ positions part, positions.Pairwise (· < ·) ∧
      (∀ position, position ∈ positions ↔
        mask[position]? = some true ∧ mask'[position]? = some true) ∧
      table.RowsAt positions part ∧
      (do filterText (← filterText table first params) second params) = .ok part ∧
      (do filterText (← filterText table second params) first params) = .ok part ∧
      filterText table (joined first second) params = .ok part

/-- **Filtering row by row.** Every table with as many cells in each column as it has rows is
filtered row by row. -/
theorem rowByRow (hrectangular : table.Rectangular) : RowByRow table where
  mask_rows := fun _ _ _ => mask_takeRows hrectangular
  twice := by
    intro text params
    rcases hread : read text with error | condition
    · rw [filterText, hread]
      rfl
    · rcases hmask : condition.mask table params with error | mask
      · rw [filterText, hread]
        change condition.filter table params >>= _ = condition.filter table params
        rw [filter, hmask]
        rfl
      · rw [filterText_filterText hrectangular hread hread hmask hmask,
          filterText_of_read hread hmask, List.zipWith_self]
        simp
  both := by
    intro first second left right params mask mask' hfirst hsecond hplaces hleft hright
    have hboth := mask_and hleft hright
    have hswap : List.zipWith (· && ·) mask' mask = List.zipWith (· && ·) mask mask' :=
      List.zipWith_comm_of_comm Bool.and_comm
    refine ⟨positionsOf (List.zipWith (· && ·) mask mask'), _, pairwise_positionsOf _, ?_,
      rowsAt_takeRows hrectangular fun _ => lt_of_mem_positionsOf hboth,
      filterText_filterText hrectangular hfirst hsecond hleft hright,
      hswap ▸ filterText_filterText hrectangular hsecond hfirst hright hleft,
      filterText_of_read (read_joined hfirst hplaces hsecond) hboth⟩
    intro position
    rw [mem_positionsOf, List.getElem?_zipWith]
    rcases mask[position]? with _ | (_ | _) <;> rcases mask'[position]? with _ | (_ | _) <;> simp

/-- levels that sensors read, one of them missing -/
def sensorLevels : Table :=
  { columns := [⟨"sensor", [.string "a", .string "b", .string "a", .string "c"]⟩,
      ⟨"level", [.ofInt 5, .ofInt 9, .null, .ofInt 7]⟩]
    index := [0, 1, 2, 3] }

theorem rowByRow_sensorLevels : sensorLevels.Rectangular ∧
    (do filterText (← filterText sensorLevels "level >= 7" .null) "NOT sensor = 'c'" .null) =
      filterText sensorLevels "(level >= 7) AND (NOT sensor = 'c')" .null := by
  have hrectangular : sensorLevels.Rectangular := by decide
  refine ⟨hrectangular, ?_⟩
  obtain ⟨positions, part, -, -, -, hfirst, -, hboth⟩ := (rowByRow hrectangular).both
    "level >= 7" "NOT sensor = 'c'" (.compare (.column "level") .greaterEqual (.literal (.ofInt 7)))
    (.not (.compare (.column "sensor") .equal (.literal (.string "c")))) .null
    [false, true, false, true] [true, true, true, false]
    (by decide +kernel) (by decide +kernel) rfl (by decide +kernel) (by decide +kernel)
  exact hfirst.trans hboth.symm

end Condition

end TableRecipe
