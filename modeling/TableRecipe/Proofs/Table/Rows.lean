import TableRecipe.Condition.Evaluate
import TableRecipe.Proofs.Table.Columns

/-!
# Rows of a table

What choosing rows does to the labels and cells of a table, and what filling its empty cells does.

* `Table.nodup_index_filterMask`, `Table.not_mem_index_filterMask` — the labels chosen;
* `Table.cell?_filterMask` — the cells of the rows chosen;
* `Table.rectangular_takeRows` — choosing rows keeps the columns as long as the labels;
* `Table.noNulls_fillMissing`, `Table.cell?_fillMissing` — the cells after empty ones were filled.
-/

namespace TableRecipe

variable {table result : Table} {mask : List Bool} {name : String} {row position label : Nat}

theorem Value.eq_null_of_isNull {value : Value} (h : value.isNull) : value = .null := by
  cases value <;> first | rfl | cases h

/-- no cell is null -/
def Table.NoNulls (table : Table) : Prop :=
  ∀ column ∈ table.columns, ∀ cell ∈ column.cells, cell.isNull = false

namespace Table

instance : Decidable table.NoNulls :=
  inferInstanceAs (Decidable (∀ column ∈ table.columns, ∀ cell ∈ column.cells, cell.isNull = false))

instance : Decidable table.Rectangular :=
  inferInstanceAs (Decidable (∀ column ∈ table.columns,
    column.cells.length = table.index.length))

/-! ## The positions of a mask -/

theorem mem_positionsOf : row ∈ positionsOf mask ↔ mask[row]? = some true := by
  rw [positionsOf]
  constructor
  · intro h
    obtain ⟨⟨keep, position⟩, hmem, hkeep⟩ := List.mem_filterMap.mp h
    rcases keep with _ | _
    · cases hkeep
    · obtain rfl : position = row := Option.some.inj hkeep
      exact List.mem_zipIdx_iff_getElem?.mp hmem
  · intro h
    exact List.mem_filterMap.mpr ⟨(true, row), List.mem_zipIdx_iff_getElem?.mpr h, rfl⟩

theorem nodup_positionsOf : (positionsOf mask).Nodup := by
  have hplaces : mask.zipIdx.Pairwise (fun x y => x.2 ≠ y.2) := by
    rw [← List.pairwise_map, List.zipIdx_map_snd]
    exact List.nodup_range'
  -- every position comes from one place of the mask
  refine hplaces.filterMap _ ?_
  rintro ⟨keep, position⟩ ⟨keep', position'⟩ hne place hplace place' hplace'
  cases keep <;> cases keep' <;> simp_all

/-- The positions that a condition selects are those of rows. -/
theorem lt_of_mem_positionsOf {condition : Condition Operand} {params : Value}
    (h : condition.mask table params = .ok mask) (hposition : position ∈ positionsOf mask) :
    position < table.index.length := by
  obtain ⟨bound, -, h⟩ := bind_eq_ok.mp h
  obtain rfl := pure_eq_ok.mp h
  have hlt := (List.getElem?_eq_some_iff.mp (mem_positionsOf.mp hposition)).1
  simpa [Table.length] using hlt

/-! ## The rows of a mask -/

/-- The label of a row that is not selected is not among those selected. -/
theorem not_mem_index_filterMask (hdistinct : table.index.Nodup)
    (hrow : table.index[row]? = some label) (hmask : mask[row]? ≠ some true) :
    label ∉ (table.filterMask mask).index := by
  intro h
  obtain ⟨position, hposition, hlabel⟩ := List.mem_filterMap.mp h
  have hlt : position < table.index.length := (List.getElem?_eq_some_iff.mp hlabel).1
  obtain rfl : position = row := (List.getElem?_inj hlt hdistinct).mp (hlabel.trans hrow.symm)
  exact hmask (mem_positionsOf.mp hposition)

theorem nodup_index_filterMask (hdistinct : table.index.Nodup) :
    (table.filterMask mask).index.Nodup := by
  refine List.Pairwise.filterMap _ ?_ nodup_positionsOf
  intro position position' hne first hfirst second hsecond heq
  subst heq
  have hlt : position < table.index.length := (List.getElem?_eq_some_iff.mp hfirst).1
  exact hne ((List.getElem?_inj hlt hdistinct).mp (hfirst.trans hsecond.symm))

/-- Where all positions are there, the items at them are taken in order. -/
theorem getElem?_filterMap_getElem? {α : Type} {items : List α} {positions : List Nat}
    (h : ∀ position ∈ positions, position < items.length) (row : Nat) :
    (positions.filterMap (items[·]?))[row]? = positions[row]?.bind (items[·]?) := by
  induction positions generalizing row with
  | nil => simp
  | cons position rest ih =>
    obtain ⟨item, hposition⟩ : ∃ item, items[position]? = some item :=
      ⟨_, List.getElem?_eq_getElem (h position (List.mem_cons_self ..))⟩
    rw [List.filterMap_cons_some hposition]
    cases row with
    | zero => simp [hposition]
    | succ row => simpa using ih (fun p hp => h p (List.mem_cons_of_mem _ hp)) row

/-- Lists of one length have as many items at certain positions, whether all are there or not. -/
theorem length_filterMap_getElem? {α β : Type} {items : List α} {others : List β}
    (h : items.length = others.length) (positions : List Nat) :
    (positions.filterMap (items[·]?)).length = (positions.filterMap (others[·]?)).length := by
  rw [List.length_filterMap_eq_countP, List.length_filterMap_eq_countP]
  refine List.countP_congr fun position _ => ?_
  rw [Option.isSome_iff_ne_none, Option.isSome_iff_ne_none, ne_eq, ne_eq,
    List.getElem?_eq_none_iff, List.getElem?_eq_none_iff, h]

@[simp] theorem names_filterMask : (table.filterMask mask).names = table.names := by
  simp [filterMask, takeRows, names]

theorem noNulls_filterMask (h : table.NoNulls) : (table.filterMask mask).NoNulls := by
  intro column hcolumn cell hcell
  obtain ⟨old, hold, rfl⟩ := List.mem_map.mp hcolumn
  obtain ⟨position, -, hat⟩ := List.mem_filterMap.mp hcell
  exact h old hold cell (List.mem_of_getElem? hat)

theorem cells?_takeRows (positions : List Nat) :
    (table.takeRows positions).cells? name =
      (table.cells? name).map fun cells => positions.filterMap (cells[·]?) := by
  simp only [cells?, takeRows]
  rw [List.find?_map]
  simp [Function.comp_def]

theorem length_of_cells? (hrectangular : table.Rectangular) {cells : List Value}
    (h : table.cells? name = some cells) : cells.length = table.index.length := by
  obtain ⟨column, hmem, -, rfl⟩ := cells?_mem h
  exact hrectangular column hmem

/-- A column that is there has a cell in every row. -/
theorem cell?_of_has (hrectangular : table.Rectangular) (hhas : table.has name)
    (hrow : table.index[row]? = some label) : ∃ cell, table.cell? name row = some cell := by
  rw [has_iff_cells?] at hhas
  obtain ⟨cells, hcells⟩ := Option.isSome_iff_exists.mp hhas
  have hlength := length_of_cells? hrectangular hcells
  have hlt : row < cells.length := hlength ▸ (List.getElem?_eq_some_iff.mp hrow).1
  exact ⟨cells[row], by rw [cell?, hcells]; exact List.getElem?_eq_getElem hlt⟩

/-- A row that was chosen has the cells of the row with its label. -/
theorem cell?_filterMask (hdistinct : table.index.Nodup) (hrectangular : table.Rectangular)
    (hmask : ∀ position ∈ positionsOf mask, position < table.index.length)
    (hrow : (table.filterMask mask).index[row]? = some label)
    (hposition : table.index[position]? = some label) :
    (table.filterMask mask).cell? name row = table.cell? name position := by
  -- distinct labels: the row was chosen from the position where its label stands
  have hplace : (positionsOf mask)[row]? = some position := by
    have hlabel := getElem?_filterMap_getElem? hmask row ▸ hrow
    obtain ⟨place, hplace, hthere⟩ := Option.bind_eq_some_iff.mp hlabel
    have hlt : place < table.index.length := (List.getElem?_eq_some_iff.mp hthere).1
    obtain rfl := (List.getElem?_inj hlt hdistinct).mp (hthere.trans hposition.symm)
    exact hplace
  rw [cell?, cell?, filterMask, cells?_takeRows]
  rcases hcells : table.cells? name with _ | cells
  · rfl
  · have hlength := length_of_cells? hrectangular hcells
    have hplaces : ∀ place ∈ positionsOf mask, place < cells.length :=
      fun place hmem => hlength ▸ hmask place hmem
    have hat := getElem?_filterMap_getElem? hplaces row
    simp [hat, hplace]

theorem rectangular_takeRows (hrectangular : table.Rectangular) (positions : List Nat) :
    (table.takeRows positions).Rectangular := by
  intro column hcolumn
  obtain ⟨old, hold, rfl⟩ := List.mem_map.mp hcolumn
  exact length_filterMap_getElem? (hrectangular old hold) positions

/-! ## Empty cells -/

/-- Filling leaves no cell empty. -/
theorem noNulls_fillMissing : table.fillMissing.NoNulls := by
  intro column hcolumn cell hcell
  obtain ⟨old, -, rfl⟩ := List.mem_map.mp hcolumn
  obtain ⟨before, -, rfl⟩ := List.mem_map.mp hcell
  by_cases hnull : before.isNull
  · simp only [hnull, if_true]
    rfl
  · simp [hnull]

/-- Where no cell is empty, filling changes nothing. -/
theorem fillMissing_of_noNulls (h : table.NoNulls) : table.fillMissing = table := by
  have hcells : ∀ column ∈ table.columns, ∀ filler : Value,
      column.cells.map (fun cell => if cell.isNull then filler else cell) = column.cells := by
    intro column hcolumn filler
    refine (List.map_congr_left fun cell hcell => ?_).trans (List.map_id _)
    simp [h column hcolumn cell hcell]
  have hcolumns : table.fillMissing.columns = table.columns := by
    refine (List.map_congr_left fun column hcolumn => ?_).trans (List.map_id _)
    simp only [hcells column hcolumn]
    rfl
  simp only [fillMissing] at hcolumns ⊢
  rw [hcolumns]

/-- Filling replaces the cells that are null. -/
theorem cell?_fillMissing :
    table.fillMissing.cell? name row = (table.cell? name row).map fun cell =>
      if cell.isNull then .string (if table.isDate name then epoch else "") else cell := by
  simp only [cell?, cells?, fillMissing]
  rw [List.find?_map]
  rcases hfind : table.columns.find? (·.name = name) with _ | column
  · simp [Function.comp_def, hfind]
  · have hname : column.name = name := by simpa using List.find?_some hfind
    simp [Function.comp_def, hfind, hname]

end Table

end TableRecipe
