import TableRecipe.Proofs.Table.Columns
import TableRecipe.Recipe.Section

/-!
# Rows put back into their table

What a table holds after the rows that a step changed were put back by label.

* `Table.broughtBack` — the cell that comes back for a label;
* `Recipe.cell?_mergeColumns` — every cell of the merged table;
* `Recipe.shape_mergeSelected` — its labels and the order of its columns;
* `Recipe.keepsRow_mergeSelected_iff` — the rows that come out as they went in.
-/

namespace TableRecipe

variable {table changed merged result : Table} {column other : String} {row label : Nat}

/-! ## Labels and positions -/

/-- Among distinct labels, a label stands where it is found. -/
theorem Table.lastPosition?_eq_some (hdistinct : table.index.Nodup) {position : Nat} :
    table.lastPosition? label = some position ↔ table.index[position]? = some label := by
  rw [lastPosition?]
  constructor
  · intro h
    obtain ⟨⟨found, place⟩, hfound, rfl⟩ := Option.map_eq_some_iff.mp h
    have hmem := List.mem_reverse.mp (List.mem_of_find?_eq_some hfound)
    have hlabel : found = label := by simpa using List.find?_some hfound
    exact hlabel ▸ List.mem_zipIdx_iff_getElem?.mp hmem
  · intro h
    have hmem : (label, position) ∈ table.index.zipIdx.reverse :=
      List.mem_reverse.mpr (List.mem_zipIdx_iff_getElem?.mpr h)
    rcases hfind : table.index.zipIdx.reverse.find? (·.1 = label) with _ | ⟨found, place⟩
    · simpa using List.find?_eq_none.mp hfind _ hmem
    · have hplace := List.mem_zipIdx_iff_getElem?.mp
        (List.mem_reverse.mp (List.mem_of_find?_eq_some hfind))
      obtain rfl : found = label := by simpa using List.find?_some hfind
      -- the search comes from the back, but a distinct label stands in one place only
      have hlt : place < table.index.length := (List.getElem?_eq_some_iff.mp hplace).1
      rw [hfind]
      exact congrArg some ((List.getElem?_inj hlt hdistinct).mp (hplace.trans h.symm))

/-- Among distinct labels, a label and a position name the same row. -/
theorem Table.lastPosition?_eq_some_row_iff (hdistinct : table.index.Nodup)
    (hrow : table.index[row]? = some label) {found : Nat} :
    table.lastPosition? found = some row ↔ found = label := by
  rw [lastPosition?_eq_some hdistinct, hrow, Option.some_inj, eq_comm]

/-! ## The cell that comes back -/

/-- the last of the values under a key -/
def lastUnder (key : Nat) : List (Nat × Value) → Option Value
  | [] => none
  | (other, value) :: rest => (lastUnder key rest).or (if other = key then some value else none)

/-- the cells under keys that are not null -/
def present (keys : List Nat) (cells : List Value) : List (Nat × Value) :=
  (keys.zip cells).filter fun (_, cell) => !cell.isNull

/-- the cell that a table brings back for the row of a label: the last one under it that is not
null -/
def Table.broughtBack (changed : Table) (column : String) (label : Nat) : Option Value :=
  lastUnder label (present changed.index ((changed.cells? column).getD []))

/-- No cell comes back for a label that is not there. -/
theorem lastUnder_of_not_mem {key : Nat} {changes : List (Nat × Value)}
    (h : key ∉ changes.map (·.1)) : lastUnder key changes = none := by
  induction changes with
  | nil => rfl
  | cons change rest ih =>
    obtain ⟨other, value⟩ := change
    simp only [List.map_cons, List.mem_cons, not_or] at h
    simp [lastUnder, ih h.2, Ne.symm h.1]

theorem map_fst_present_subset (keys : List Nat) (cells : List Value) :
    (present keys cells).map (·.1) ⊆ keys := by
  intro key h
  obtain ⟨⟨other, cell⟩, hmem, rfl⟩ := List.mem_map.mp h
  exact (List.of_mem_zip (List.mem_filter.mp hmem).1).1

theorem Table.broughtBack_of_not_mem (column : String) (h : label ∉ changed.index) :
    changed.broughtBack column label = none :=
  lastUnder_of_not_mem fun hmem => h (map_fst_present_subset _ _ hmem)

/-- Under distinct keys a cell comes back unless it is null. -/
theorem lastUnder_present {keys : List Nat} {cells : List Value} {key : Nat} {cell : Value}
    (hdistinct : keys.Nodup) (hkey : keys[row]? = some key) (hcell : cells[row]? = some cell) :
    lastUnder key (present keys cells) = if cell.isNull then none else some cell := by
  induction keys generalizing row cells with
  | nil => cases hkey
  | cons first rest ih =>
    obtain ⟨hfirst, hrest⟩ := List.nodup_cons.mp hdistinct
    cases cells with
    | nil => cases hcell
    | cons found cells =>
      have hcons : present (first :: rest) (found :: cells) =
          if found.isNull then present rest cells else (first, found) :: present rest cells := by
        simp only [present]
        rcases hnull : found.isNull <;> simp [hnull]
      -- the first key decides if it is the one; then it does not occur again behind it
      cases row with
      | zero =>
        obtain rfl : first = key := by simpa using hkey
        obtain rfl : found = cell := by simpa using hcell
        have hnone : lastUnder first (present rest cells) = none :=
          lastUnder_of_not_mem fun hmem => hfirst (map_fst_present_subset _ _ hmem)
        rw [hcons]
        split
        · exact hnone
        · simp [lastUnder, hnone]
      | succ row =>
        have hkey' : rest[row]? = some key := by simpa using hkey
        have hne : first ≠ key := fun e => hfirst (e ▸ List.mem_of_getElem? hkey')
        have htail := ih hrest hkey' (by simpa using hcell)
        rw [hcons]
        split
        · exact htail
        · simp [lastUnder, hne, htail]

/-- The cell that comes back for a label is the one in its row, unless it is null. -/
theorem Table.broughtBack_eq (hdistinct : changed.index.Nodup)
    (hrow : changed.index[row]? = some label) {cell : Value}
    (hcell : changed.cell? column row = some cell) :
    changed.broughtBack column label = if cell.isNull then none else some cell := by
  obtain ⟨cells, hcells, hat⟩ := Option.bind_eq_some_iff.mp hcell
  rw [broughtBack, hcells]
  exact lastUnder_present hdistinct hrow hat

namespace Recipe

theorem getElem?_putAt (cells : List Value) (changes : List (Nat × Value)) (position : Nat) :
    (putAt cells changes)[position]? =
      cells[position]?.map fun old => (lastUnder position changes).getD old := by
  induction changes generalizing cells with
  | nil => simp [putAt, lastUnder]
  | cons change rest ih =>
    obtain ⟨place, value⟩ := change
    have hrec : putAt cells ((place, value) :: rest) = putAt (cells.set place value) rest := rfl
    -- the changes behind come later and overwrite this one
    rw [hrec, ih, List.getElem?_set]
    by_cases h : place = position
    · subst h
      rcases Nat.lt_or_ge place cells.length with hlt | hge
      · rcases hrest : lastUnder place rest <;> simp [lastUnder, hlt, hrest]
      · simp [hge]
    · rcases hrest : lastUnder position rest <;> simp [lastUnder, h, hrest]

theorem length_putAt (cells : List Value) (changes : List (Nat × Value)) :
    (putAt cells changes).length = cells.length := by
  induction changes generalizing cells with
  | nil => rfl
  | cons change rest ih =>
    have hrec : putAt cells (change :: rest) = putAt (cells.set change.1 change.2) rest := rfl
    rw [hrec, ih, List.length_set]

/-- What comes back at a position is what comes back for its label. -/
theorem lastUnder_present_positions (hdistinct : table.index.Nodup) {labels positions : List Nat}
    (h : positionsOf table { index := labels } = .ok positions) (cells : List Value)
    (hrow : table.index[row]? = some label) :
    lastUnder row (present positions cells) = lastUnder label (present labels cells) := by
  induction labels generalizing positions cells with
  | nil =>
    obtain rfl := Except.ok.inj h
    rfl
  | cons first rest ih =>
    rw [positionsOf, List.mapM_cons] at h
    obtain ⟨position, hfirst, h⟩ := bind_eq_ok.mp h
    obtain ⟨positions, hrest, h⟩ := bind_eq_ok.mp h
    obtain rfl := pure_eq_ok.mp h
    have hplace : table.lastPosition? first = some position := by
      rcases hp : table.lastPosition? first with _ | p <;> rw [hp] at hfirst
      · cases hfirst
      · exact congrArg some (Except.ok.inj hfirst)
    have hsame : position = row ↔ first = label := by
      rw [← Table.lastPosition?_eq_some_row_iff hdistinct hrow, hplace, Option.some_inj]
    cases cells with
    | nil => rfl
    | cons cell cells =>
      have htail := ih hrest cells
      simp only [present] at htail ⊢
      simp only [List.zip_cons_cons, List.filter_cons]
      split
      · simp only [lastUnder, htail, hsame]
      · exact htail

/-! ## One column -/

/-- Cells put into a column leave the labels alone and replace the cells of that column. -/
theorem edit_putAt_ok {changes : List (Nat × Value)}
    (h : merged.edit (Edit.setColumn column (putAt (cellsOrNulls merged column) changes)) =
      .ok result) :
    (cellsOrNulls merged column).length = merged.index.length ∧
      result.index = merged.index ∧
      result.columns = Edit.putCells column (putAt (cellsOrNulls merged column) changes)
        merged.columns := by
  obtain ⟨hlength, rfl⟩ := Table.edit_setColumn_ok.mp h
  -- a new column is as long as the table, so it brings no rows with it
  have hindex : Edit.indexFor merged (putAt (cellsOrNulls merged column) changes) =
      merged.index := by
    rcases hcells : merged.cells? column with _ | cells
    · apply Table.indexFor_of_length
      simp [length_putAt, cellsOrNulls, hcells, Table.length]
    · obtain ⟨old, hold, -⟩ := Table.cells?_mem hcells
      exact Table.indexFor_of_columns (List.ne_nil_of_mem hold)
  rw [hindex, length_putAt] at hlength
  exact ⟨hlength, hindex, rfl⟩

/-- A cell that was put into a column: the last one for its position, else the one there was. -/
theorem cell?_putAt {changes : List (Nat × Value)}
    (h : merged.edit (Edit.setColumn column (putAt (cellsOrNulls merged column) changes)) =
      .ok result) (hlt : row < merged.index.length) :
    result.cell? column row = some ((lastUnder row changes).getD (merged.cell column row)) := by
  obtain ⟨hlength, -, -⟩ := edit_putAt_ok h
  rw [← hlength] at hlt
  have hold : (cellsOrNulls merged column)[row]? = some (merged.cell column row) := by
    unfold Table.cell Table.cell? cellsOrNulls at *
    rcases hc : merged.cells? column with _ | cells <;> simp_all
  rw [Table.cell?, Table.cells?_setColumn h, if_pos rfl, Option.bind_some, getElem?_putAt, hold,
    Option.map_some]

/-- A column is put back with its date mark. -/
theorem mergeColumn_edit {positions : List Nat}
    (h : mergeColumn changed positions merged column = .ok result) :
    ∃ incoming wider, changed.cells? column = some incoming ∧
      merged.edit (Edit.setColumn column
        (putAt (cellsOrNulls merged column) (present positions incoming))) = .ok wider ∧
      result = if changed.isDate column then wider.markDate column else wider := by
  obtain ⟨incoming, hincoming, h⟩ := bind_eq_ok.mp h
  obtain ⟨wider, hwider, h⟩ := bind_eq_ok.mp h
  exact ⟨incoming, wider, Table.cells_eq_ok.mp hincoming, hwider, (pure_eq_ok.mp h).symm⟩

/-- Putting a column back leaves the labels alone and replaces the cells of that column. -/
theorem mergeColumn_ok {positions : List Nat}
    (h : mergeColumn changed positions merged column = .ok result) :
    ∃ incoming, changed.cells? column = some incoming ∧
      (cellsOrNulls merged column).length = merged.index.length ∧
      result.index = merged.index ∧
      result.columns = Edit.putCells column
        (putAt (cellsOrNulls merged column) (present positions incoming)) merged.columns := by
  obtain ⟨incoming, wider, hincoming, hwider, rfl⟩ := mergeColumn_edit h
  obtain ⟨hlength, hindex, hcolumns⟩ := edit_putAt_ok hwider
  refine ⟨incoming, hincoming, hlength, ?_, ?_⟩
  · split <;> simp [hindex]
  · split <;> simp [hcolumns]

/-- The date mark of a column is put back with it. -/
theorem mem_dates_mergeColumn {positions : List Nat}
    (h : mergeColumn changed positions merged column = .ok result) :
    other ∈ result.dates ↔ other ∈ merged.dates ∨ (other = column ∧ column ∈ changed.dates) := by
  obtain ⟨incoming, wider, -, hwider, rfl⟩ := mergeColumn_edit h
  have hdates := Table.dates_of_setColumn hwider
  have hhas := Table.has_of_setColumn hwider
  by_cases hdate : column ∈ changed.dates
  · simp [Table.isDate, hdate, Table.mem_dates_markDate, hhas, hdates]
  · simp [Table.isDate, hdate, hdates]

/-- The cells of a row after one column was put back. -/
theorem cell?_mergeColumn (other : String) (hdistinct : table.index.Nodup) {positions : List Nat}
    (hpositions : positionsOf table changed = .ok positions)
    (hindex : merged.index = table.index) (hrow : table.index[row]? = some label)
    (h : mergeColumn changed positions merged column = .ok result) :
    result.cell? other row =
      if other = column then some ((changed.broughtBack column label).getD (merged.cell column row))
      else merged.cell? other row := by
  obtain ⟨incoming, wider, hincoming, hwider, rfl⟩ := mergeColumn_edit h
  have hmark : (if changed.isDate column then wider.markDate column else wider).cell? other row =
      wider.cell? other row := by
    split <;> simp [Table.cell?]
  rw [hmark]
  by_cases hother : other = column
  · subst hother
    have hlt : row < merged.index.length := hindex ▸ (List.getElem?_eq_some_iff.mp hrow).1
    have hback : lastUnder row (present positions incoming) = changed.broughtBack other label := by
      simp only [Table.broughtBack, hincoming, Option.getD_some]
      exact lastUnder_present_positions hdistinct hpositions incoming hrow
    rw [cell?_putAt hwider hlt, hback, if_pos rfl]
  · rw [Table.cell?, Table.cells?_setColumn hwider, if_neg hother, if_neg hother]
    rfl

/-- In a row that was kept, every column holds the old cell, or null if it is new. -/
theorem getElem?_cellsOrNulls_of_keepsRow (column : String)
    (hkeeps : KeepsRow row table.columns merged.columns) (hlt : row < merged.index.length) :
    (cellsOrNulls merged column)[row]? =
      ((table.columns.find? (·.name = column)).map (·.cells[row]?)).getD (some .null) := by
  rw [cellsOrNulls, Table.cells?]
  rcases hold : table.columns.find? (·.name = column) with _ | old
  · rcases hnew : merged.columns.find? (·.name = column) with _ | new
    · simp [hold, hnew, Table.length, hlt]
    · simpa [hold, hnew] using hkeeps.find?_of_none hold hnew
  · obtain ⟨new, hnew, hcell⟩ := hkeeps.find? hold
    simpa [hold, hnew] using hcell

/-- A row is kept when what comes back for it is what it held. -/
theorem keepsRow_mergeColumn (hdistinct : table.index.Nodup) {positions : List Nat}
    (hpositions : positionsOf table changed = .ok positions)
    (hindex : merged.index = table.index) (hrow : table.index[row]? = some label)
    (h : mergeColumn changed positions merged column = .ok result)
    (hsame : ∀ cell, changed.broughtBack column label = some cell → table.cell column row = cell)
    (hkeeps : KeepsRow row table.columns merged.columns) :
    KeepsRow row table.columns result.columns := by
  obtain ⟨incoming, hincoming, hlength, -, hcolumns⟩ := mergeColumn_ok h
  have hback : lastUnder row (present positions incoming) = changed.broughtBack column label := by
    simp only [Table.broughtBack, hincoming, Option.getD_some]
    exact lastUnder_present_positions hdistinct hpositions incoming hrow
  have hlt : row < merged.index.length := hindex ▸ (List.getElem?_eq_some_iff.mp hrow).1
  have hold := getElem?_cellsOrNulls_of_keepsRow column hkeeps hlt
  obtain ⟨cell, hcell⟩ : ∃ cell, (cellsOrNulls merged column)[row]? = some cell :=
    ⟨_, List.getElem?_eq_getElem (hlength ▸ hlt)⟩
  rw [hcolumns]
  apply hkeeps.putCells
  rw [getElem?_putAt, hback, ← hold, hcell]
  rcases hcome : changed.broughtBack column label with _ | come
  · rfl
  · -- what comes back is the cell of the table, which is still there
    have hthere : table.cell column row = cell := by
      rw [hcell] at hold
      rw [Table.cell, Table.cell?, Table.cells?]
      rcases hfind : table.columns.find? (·.name = column) with _ | old
      · simpa [hfind] using hold.symm
      · rw [hfind, Option.map_some, Option.getD_some] at hold
        simp [hfind, ← hold]
    simp [← hthere, hsame come hcome]

/-! ## All columns -/

theorem index_mergeColumns {positions : List Nat} {columns : List String}
    (h : columns.foldlM (mergeColumn changed positions) merged = .ok result) :
    result.index = merged.index := by
  refine foldlM_ok (fun merged' => merged'.index = merged.index) h rfl ?_
  intro column _ before after hstep hbefore
  obtain ⟨_, -, -, hindex, -⟩ := mergeColumn_ok hstep
  exact hindex.trans hbefore

theorem names_mergeColumns {positions : List Nat} {columns : List String}
    (h : columns.foldlM (mergeColumn changed positions) merged = .ok result) :
    merged.names <+: result.names := by
  refine foldlM_ok (fun merged' => merged.names <+: merged'.names) h (List.prefix_refl _) ?_
  intro column _ before after hstep hbefore
  obtain ⟨_, -, -, -, hcolumns⟩ := mergeColumn_ok hstep
  refine hbefore.trans ?_
  simp only [Table.names, hcolumns]
  exact Edit.names_prefix_putCells

/-- Where every step puts cells into one column and the last cell put there stands, all columns
hold what was put into them. -/
theorem cell?_foldlM {step : Table → String → Except Error Table} (back : String → Option Value)
    {index : List Nat} (hstep : ∀ before column after, before.index = index →
      step before column = .ok after → after.index = index ∧ ∀ other, after.cell? other row =
        if other = column then some ((back column).getD (before.cell column row))
        else before.cell? other row)
    {columns : List String} (hindex : merged.index = index)
    (h : columns.foldlM step merged = .ok result) (other : String) :
    result.cell? other row =
      if other ∈ columns then some ((back other).getD (merged.cell other row))
      else merged.cell? other row := by
  induction columns generalizing merged with
  | nil =>
    obtain rfl := Except.ok.inj h
    simp
  | cons column rest ih =>
    rw [List.foldlM_cons] at h
    obtain ⟨middle, hmiddle, hrest⟩ := bind_eq_ok.mp h
    obtain ⟨hindex, hcell⟩ := hstep _ _ _ hindex hmiddle
    rw [ih hindex hrest]
    simp only [Table.cell, hcell]
    by_cases hcolumn : other = column
    · subst hcolumn
      rcases back other <;> simp
    · simp [hcolumn]

theorem cell?_mergeColumns (other : String) (hdistinct : table.index.Nodup) {positions : List Nat}
    (hpositions : positionsOf table changed = .ok positions)
    (hrow : table.index[row]? = some label) {columns : List String}
    (hindex : merged.index = table.index)
    (h : columns.foldlM (mergeColumn changed positions) merged = .ok result) :
    result.cell? other row =
      if other ∈ columns then
        some ((changed.broughtBack other label).getD (merged.cell other row))
      else merged.cell? other row := by
  refine cell?_foldlM (changed.broughtBack · label) (fun before column after hbefore hstep => ?_)
    hindex h other
  obtain ⟨_, -, -, hafter, -⟩ := mergeColumn_ok hstep
  refine ⟨hafter.trans hbefore, fun other => ?_⟩
  exact cell?_mergeColumn other hdistinct hpositions hbefore hrow hstep

theorem mem_dates_mergeColumns (other : String) {positions : List Nat} {columns : List String}
    (h : columns.foldlM (mergeColumn changed positions) merged = .ok result) :
    other ∈ result.dates ↔ other ∈ merged.dates ∨ (other ∈ columns ∧ other ∈ changed.dates) := by
  induction columns generalizing merged with
  | nil =>
    obtain rfl := Except.ok.inj h
    simp
  | cons column rest ih =>
    rw [List.foldlM_cons] at h
    obtain ⟨middle, hstep, hrest⟩ := bind_eq_ok.mp h
    rw [ih hrest, mem_dates_mergeColumn hstep]
    grind

/-- The columns put back are there. -/
theorem cells?_of_mem_mergeColumns {positions : List Nat} {columns : List String}
    (h : columns.foldlM (mergeColumn changed positions) merged = .ok result)
    (hcolumn : column ∈ columns) : ∃ incoming, changed.cells? column = some incoming := by
  induction columns generalizing merged with
  | nil => cases hcolumn
  | cons first rest ih =>
    rw [List.foldlM_cons] at h
    obtain ⟨middle, hstep, hrest⟩ := bind_eq_ok.mp h
    rcases List.mem_cons.mp hcolumn with rfl | hcolumn
    · obtain ⟨incoming, hincoming, -⟩ := mergeColumn_ok hstep
      exact ⟨incoming, hincoming⟩
    · exact ih hrest hcolumn

/-- Rows are put back column by column. -/
theorem mergeSelected_ok {params : Fields} (h : mergeSelected table changed params = .ok result) :
    ∃ positions columns, positionsOf table changed = .ok positions ∧
      mergedColumns table changed params = .ok columns ∧
      columns.foldlM (mergeColumn changed positions) table = .ok result := by
  obtain ⟨positions, hpositions, h⟩ := bind_eq_ok.mp h
  obtain ⟨columns, hcolumns, h⟩ := bind_eq_ok.mp h
  exact ⟨positions, columns, hpositions, hcolumns, h⟩

/-- Putting rows back keeps the labels and the columns there were, in their order. -/
theorem shape_mergeSelected {params : Fields}
    (h : mergeSelected table changed params = .ok result) :
    result.index = table.index ∧ table.names <+: result.names := by
  obtain ⟨positions, columns, -, -, h⟩ := mergeSelected_ok h
  exact ⟨index_mergeColumns h, names_mergeColumns h⟩

/-- **Rows that come out as they went in.** A row is kept if and only if all that comes back for
its label is what it held, a column that it does not have holding null. -/
theorem keepsRow_mergeSelected_iff {params : Fields} {columns : List String}
    (hdistinct : table.index.Nodup) (h : mergeSelected table changed params = .ok result)
    (hcolumns : mergedColumns table changed params = .ok columns)
    (hrow : table.index[row]? = some label) :
    KeepsRow row table.columns result.columns ↔
      ∀ column ∈ columns, ∀ cell, changed.broughtBack column label = some cell →
        table.cell column row = cell := by
  obtain ⟨positions, columns', hpositions, hcolumns', h⟩ := mergeSelected_ok h
  obtain rfl := Except.ok.inj (hcolumns'.symm.trans hcolumns)
  constructor
  · intro hkeeps column hmem cell hback
    have hcell := cell?_mergeColumns column hdistinct hpositions hrow rfl h
    rw [if_pos hmem, hback, Option.getD_some] at hcell
    exact hkeeps.cell_eq hcell
  · intro hsame
    refine (foldlM_ok (fun merged => merged.index = table.index ∧
      KeepsRow row table.columns merged.columns) h ⟨rfl, KeepsRow.refl _ _⟩ ?_).2
    intro column hmem before after hstep hbefore
    obtain ⟨_, -, -, hindex, -⟩ := mergeColumn_ok hstep
    exact ⟨hindex.trans hbefore.1, keepsRow_mergeColumn hdistinct hpositions hbefore.1 hrow hstep
      (hsame column hmem) hbefore.2⟩

end Recipe

end TableRecipe
