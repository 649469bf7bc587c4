import TableRecipe.Proofs.Recipe.Merge
import TableRecipe.Proofs.Table.Union
import TableRecipe.Proofs.Table.Writes

/-!
# Rows put back

The rows that a step changed are put back by label, whatever the step made of them: it may have
reordered, dropped or repeated rows, and renamed or added columns. Either a label or a column is
missing, or the parameters hold no good selectors; or everything stays in its place but the cells
of certain columns, and there the last cell under the label of a row takes the place of the old one
unless it is null.

* `Recipe.MergedNames`, `Recipe.BadSelectors` — the columns that are put back, or why there are none;
* `Recipe.Unmergeable` — why rows cannot be put back;
* `Recipe.PutBack` — a table with rows put back;
* `Recipe.mergeSelected_outcome` — what putting rows back comes to.
-/

namespace TableRecipe.Recipe

variable {table changed merged result : Table} {params : Fields} {columns : List String}
  {column : String} {error : Error} {row label : Nat}

/-! ## One column -/

/-- Cells put into a column leave everything else as it is. -/
theorem writes_putAt {changes : List (Nat × Value)}
    (h : merged.edit (Edit.setColumn column (putAt (cellsOrNulls merged column) changes)) =
      .ok result) : merged.Writes [column] result := by
  refine .setColumn h ?_
  rcases hcells : merged.cells? column with _ | cells
  · exact .inl (by simp [length_putAt, cellsOrNulls, hcells, Table.length])
  · obtain ⟨old, hold, -⟩ := Table.cells?_mem hcells
    exact .inr (List.ne_nil_of_mem hold)

/-- Into a column of a rectangular table cells can be put. -/
theorem exists_edit_putAt (hshape : merged.Rectangular) (column : String)
    (changes : List (Nat × Value)) : ∃ result,
      merged.edit (Edit.setColumn column (putAt (cellsOrNulls merged column) changes)) =
        .ok result := by
  have hlength : (putAt (cellsOrNulls merged column) changes).length = merged.index.length := by
    rw [length_putAt, cellsOrNulls]
    rcases hcells : merged.cells? column with _ | cells
    · simp [Table.length]
    · exact Table.length_of_cells? hshape hcells
  refine ⟨_, Table.edit_setColumn_ok.mpr ⟨?_, rfl⟩⟩
  rw [hlength, Table.indexFor_of_length hlength]

theorem writes_mergeColumn {positions : List Nat}
    (h : mergeColumn changed positions merged column = .ok result) :
    merged.Writes [column] result := by
  obtain ⟨incoming, wider, -, hwider, rfl⟩ := mergeColumn_edit h
  have hwrites := writes_putAt hwider
  split
  · exact hwrites.markDate (List.mem_singleton_self column)
  · exact hwrites

/-- A column can be put back if it is there. -/
theorem mergeColumn_outcome (hshape : merged.Rectangular) (positions : List Nat)
    (column : String) :
    (column ∈ changed.names ∧ ∃ result, mergeColumn changed positions merged column = .ok result) ∨
      (column ∉ changed.names ∧
        mergeColumn changed positions merged column = .error (.unknownColumn column)) := by
  rw [← Table.has_iff_mem_names, Table.has_iff_cells?]
  rcases hcells : changed.cells? column with _ | incoming
  · refine .inr ⟨nofun, ?_⟩
    rw [mergeColumn, Table.cells, hcells]
    rfl
  · obtain ⟨wider, hwider⟩ := exists_edit_putAt hshape column (present positions incoming)
    refine .inl ⟨rfl, if changed.isDate column then wider.markDate column else wider, ?_⟩
    refine bind_eq_ok.mpr ⟨incoming, Table.cells_eq_ok.mpr hcells, ?_⟩
    exact bind_eq_ok.mpr ⟨wider, hwider, rfl⟩

/-! ## All columns -/

theorem writes_mergeColumns {positions : List Nat}
    (h : columns.foldlM (mergeColumn changed positions) merged = .ok result) :
    merged.Writes columns result := by
  have hstep : ∀ before column after, mergeColumn changed positions before column = .ok after →
      before.Writes [id column] after := fun _ _ _ => writes_mergeColumn
  simpa using Table.Writes.foldlM hstep h

/-- Columns are put back unless one is missing; the first one that is makes the failure. -/
theorem mergeColumns_eq_error_iff (hshape : merged.Rectangular) {positions : List Nat} :
    columns.foldlM (mergeColumn changed positions) merged = .error error ↔
      ∃ column, columns.find? (· ∉ changed.names) = some column ∧
        error = .unknownColumn column := by
  induction columns generalizing merged with
  | nil => exact ⟨nofun, nofun⟩
  | cons column rest ih =>
    rw [List.foldlM_cons, bind_eq_error]
    rcases mergeColumn_outcome hshape positions column with
      ⟨hthere, middle, hmiddle⟩ | ⟨hmissing, hfailure⟩
    · have hmiddleShape : middle.Rectangular := (writes_mergeColumn hmiddle).rectangular hshape
      rw [List.find?_cons_of_neg (by simpa using hthere), ← ih hmiddleShape, hmiddle]
      simp
    · rw [List.find?_cons_of_pos (by simpa using hmissing), hfailure]
      simp [eq_comm]

/-! ## Labels -/

theorem lastPosition?_isSome : (table.lastPosition? label).isSome ↔ label ∈ table.index := by
  rw [Table.lastPosition?, Option.isSome_map, List.find?_isSome]
  constructor
  · rintro ⟨⟨found, position⟩, hfound, heq⟩
    have hposition := List.mem_zipIdx_iff_getElem?.mp (List.mem_reverse.mp hfound)
    obtain rfl : found = label := by simpa using heq
    exact List.mem_of_getElem? hposition
  · intro hmem
    obtain ⟨position, hposition⟩ := List.mem_iff_getElem?.mp hmem
    refine ⟨(label, position), List.mem_reverse.mpr ?_, by simp⟩
    exact List.mem_zipIdx_iff_getElem?.mpr hposition

/-- Rows are found unless a label is missing; the first one that is makes the failure. -/
theorem positionsOf_eq_error_iff : positionsOf table changed = .error error ↔
    ∃ label, changed.index.find? (· ∉ table.index) = some label ∧ error = .unsupported
      s!"row {label} produced under the where clause does not exist in the dataset" := by
  rw [positionsOf]
  induction changed.index with
  | nil => simp [pure, Except.pure]
  | cons label rest ih =>
    rw [List.mapM_cons]
    rcases hposition : table.lastPosition? label with _ | position
    · have hmissing : label ∉ table.index := by
        simp [← lastPosition?_isSome, hposition]
      rw [List.find?_cons_of_pos (by simpa using hmissing)]
      refine ⟨fun h => ⟨label, rfl, (Except.error.inj h).symm⟩, ?_⟩
      rintro ⟨_, hlabel, rfl⟩
      obtain rfl := Option.some.inj hlabel
      rfl
    · have hthere : label ∈ table.index := by
        rw [← lastPosition?_isSome, hposition]
        rfl
      rw [List.find?_cons_of_neg (by simpa using hthere), ← ih]
      exact bind_pure_eq_error

theorem find?_eq_none_iff_subset {α : Type} [DecidableEq α] {items others : List α} :
    items.find? (· ∉ others) = none ↔ items ⊆ others := by
  simp [List.find?_eq_none, List.subset_def]

theorem positionsOf_ok_iff :
    (∃ positions, positionsOf table changed = .ok positions) ↔ changed.index ⊆ table.index := by
  rw [← find?_eq_none_iff_subset]
  rcases hmissing : changed.index.find? (· ∉ table.index) with _ | label
  · refine ⟨fun _ => rfl, fun _ => ?_⟩
    rcases hpositions : positionsOf table changed with e | positions
    · obtain ⟨label, hlabel, -⟩ := positionsOf_eq_error_iff.mp hpositions
      rw [hmissing] at hlabel
      cases hlabel
    · exact ⟨positions, rfl⟩
  · rw [positionsOf_eq_error_iff.mpr ⟨label, hmissing, rfl⟩]
    exact ⟨nofun, nofun⟩

/-! ## The columns that are put back -/

/-- the columns that are put back: those in `output`; else those in `input` that are still there
and those that were added; else those that were added -/
inductive MergedNames (table changed : Table) (params : Fields) : List String → Prop where
  | output {value : Value} {columns : List String}
    (houtput : Fields.find? "output" params = some value)
    (hcolumns : Selector.ofValue value = .ok columns) : MergedNames table changed params columns
  | input {value : Value} {selectors columns : List String}
    (houtput : Fields.find? "output" params = none)
    (hinput : Fields.find? "input" params = some value)
    (hselectors : Selector.ofValue value = .ok selectors)
    (hcolumns : Selector.expand table.names selectors = .ok columns) :
    MergedNames table changed params
      (columns.filter (· ∈ changed.names) ++ Table.unseen table.names changed.names)
  | added (houtput : Fields.find? "output" params = none)
    (hinput : Fields.find? "input" params = none) :
    MergedNames table changed params (Table.unseen table.names changed.names)

/-- why parameters do not tell the columns to put back: `output`, or `input` if there is no
`output`, does not hold selectors, or those of `input` do not select columns -/
inductive BadSelectors (table : Table) (params : Fields) (error : Error) : Prop where
  | output {value : Value} (houtput : Fields.find? "output" params = some value)
    (hvalue : Selector.ofValue value = .error error)
  | input {value : Value} (houtput : Fields.find? "output" params = none)
    (hinput : Fields.find? "input" params = some value)
    (hvalue : Selector.ofValue value = .error error)
  | expansion {value : Value} {selectors : List String}
    (houtput : Fields.find? "output" params = none)
    (hinput : Fields.find? "input" params = some value)
    (hvalue : Selector.ofValue value = .ok selectors)
    (hexpand : Selector.expand table.names selectors = .error error)

theorem addedColumns_eq : addedColumns table changed = Table.unseen table.names changed.names := by
  refine List.filter_congr fun name _ => ?_
  rw [Bool.eq_iff_iff]
  simp [← Table.has_iff_mem_names]

theorem mergedColumns_ok_iff :
    mergedColumns table changed params = .ok columns ↔ MergedNames table changed params columns := by
  have hthere (columns : List String) :
      columns.filter changed.has = columns.filter (· ∈ changed.names) := by
    refine List.filter_congr fun name _ => ?_
    rw [Bool.eq_iff_iff]
    simp [Table.has_iff_mem_names]
  rw [mergedColumns, addedColumns_eq]
  constructor
  · intro h
    split at h
    · rename_i houtput
      exact .output houtput h
    · rename_i houtput hinput
      obtain ⟨selectors, hselectors, h⟩ := bind_eq_ok.mp h
      obtain ⟨expanded, hexpand, h⟩ := bind_eq_ok.mp h
      obtain rfl := pure_eq_ok.mp h
      rw [hthere]
      exact .input houtput hinput hselectors hexpand
    · rename_i houtput hinput
      obtain rfl := pure_eq_ok.mp h
      exact .added houtput hinput
  · intro h
    cases h with
    | output houtput hcolumns => rw [houtput]; exact hcolumns
    | input houtput hinput hselectors hcolumns =>
      rw [houtput, hinput, ← hthere]
      exact bind_eq_ok.mpr ⟨_, hselectors, bind_eq_ok.mpr ⟨_, hcolumns, rfl⟩⟩
    | added houtput hinput => rw [houtput, hinput]; rfl

theorem mergedColumns_error_iff :
    mergedColumns table changed params = .error error ↔ BadSelectors table params error := by
  rw [mergedColumns]
  constructor
  · intro h
    split at h
    · rename_i houtput
      exact .output houtput h
    · rename_i houtput hinput
      rcases bind_eq_error.mp h with h | ⟨selectors, hselectors, h⟩
      · exact .input houtput hinput h
      · exact .expansion houtput hinput hselectors (bind_pure_eq_error.mp h)
    · cases h
  · intro h
    cases h with
    | output houtput hvalue => rw [houtput]; exact hvalue
    | input houtput hinput hvalue =>
      rw [houtput, hinput]
      exact bind_eq_error.mpr (.inl hvalue)
    | expansion houtput hinput hvalue hexpand =>
      rw [houtput, hinput]
      exact bind_eq_error.mpr (.inr ⟨_, hvalue, bind_pure_eq_error.mpr hexpand⟩)

/-! ## The outcome -/

/-- why rows cannot be put back: a label is not one of the table, else the parameters do not tell
the columns, else one of these columns is not there -/
inductive Unmergeable (table changed : Table) (params : Fields) : Error → Prop where
  | label {label : Nat} (hlabel : changed.index.find? (· ∉ table.index) = some label) :
    Unmergeable table changed params (.unsupported
      s!"row {label} produced under the where clause does not exist in the dataset")
  | selectors {error : Error} (hlabels : changed.index ⊆ table.index)
    (hselectors : BadSelectors table params error) : Unmergeable table changed params error
  | column {columns : List String} {column : String} (hlabels : changed.index ⊆ table.index)
    (hcolumns : MergedNames table changed params columns)
    (hcolumn : columns.find? (· ∉ changed.names) = some column) :
    Unmergeable table changed params (.unknownColumn column)

/-- a table with rows put back: nothing changes but the columns given, and there the last cell
under the label of a row that is not null takes the place of the cell there was, or of a null in a
new column -/
structure PutBack (table changed : Table) (columns : List String) (result : Table) : Prop
    extends table.Writes columns result where
  cells : ∀ column ∈ columns, ∀ (row label : Nat), table.index[row]? = some label →
    result.cell? column row =
      some ((changed.broughtBack column label).getD (table.cell column row))
  dates_iff : ∀ column ∈ columns,
    (column ∈ result.dates ↔ column ∈ table.dates ∨ column ∈ changed.dates)

/-- **Rows put back.** Rows cannot be put back if and only if a label of them is not one of the
table, or the parameters hold bad selectors, or a column is missing. Otherwise labels, rows and
columns stay in place, and only the columns put back may differ: where a cell that is not null came
back for the label of a row, the last one stands; elsewhere the old cell does, or a null in a new
column. New columns go last, in the order in which they are put back. -/
theorem mergeSelected_outcome (hshape : table.Rectangular) (hlabels : table.index.Nodup) :
    (∀ error, mergeSelected table changed params = .error error ↔
      Unmergeable table changed params error) ∧
    ∀ result, mergeSelected table changed params = .ok result →
      ∃ columns, MergedNames table changed params columns ∧
        PutBack table changed columns result := by
  constructor
  · intro error
    constructor
    · intro h
      rcases bind_eq_error.mp h with h | ⟨positions, hpositions, h⟩
      · obtain ⟨label, hlabel, rfl⟩ := positionsOf_eq_error_iff.mp h
        exact .label hlabel
      · have hsubset := positionsOf_ok_iff.mp ⟨positions, hpositions⟩
        rcases bind_eq_error.mp h with h | ⟨columns, hcolumns, h⟩
        · exact .selectors hsubset (mergedColumns_error_iff.mp h)
        · obtain ⟨column, hcolumn, rfl⟩ := (mergeColumns_eq_error_iff hshape).mp h
          exact .column hsubset (mergedColumns_ok_iff.mp hcolumns) hcolumn
    · intro h
      cases h with
      | label hlabel =>
        exact bind_eq_error.mpr (.inl (positionsOf_eq_error_iff.mpr ⟨_, hlabel, rfl⟩))
      | selectors hsubset hselectors =>
        obtain ⟨positions, hpositions⟩ := positionsOf_ok_iff.mpr hsubset
        refine bind_eq_error.mpr (.inr ⟨positions, hpositions, bind_eq_error.mpr (.inl ?_)⟩)
        exact mergedColumns_error_iff.mpr hselectors
      | column hsubset hcolumns hcolumn =>
        obtain ⟨positions, hpositions⟩ := positionsOf_ok_iff.mpr hsubset
        refine bind_eq_error.mpr (.inr ⟨positions, hpositions, bind_eq_error.mpr (.inr ?_)⟩)
        exact ⟨_, mergedColumns_ok_iff.mpr hcolumns,
          (mergeColumns_eq_error_iff hshape).mpr ⟨_, hcolumn, rfl⟩⟩
  · intro result h
    obtain ⟨positions, columns, hpositions, hcolumns, h⟩ := mergeSelected_ok h
    refine ⟨columns, mergedColumns_ok_iff.mp hcolumns, writes_mergeColumns h, ?_, ?_⟩
    · intro column hcolumn row label hrow
      rw [cell?_mergeColumns column hlabels hpositions hrow rfl h, if_pos hcolumn]
    · intro column hcolumn
      rw [mem_dates_mergeColumns column h]
      simp [hcolumn]

/-- three rows with labels out of order -/
def shelf : Table where
  columns := [⟨"a", [.string "p", .string "q", .string "r"]⟩, ⟨"b", [.null, .bool true, .null]⟩]
  index := [4, 2, 7]

/-- what a step may return for some of these rows: one of them twice, the second time with a null,
and a column more -/
def handedBack : Table where
  columns := [⟨"c", [.string "n", .string "m", .null]⟩, ⟨"a", [.string "R", .null, .string "S"]⟩]
  index := [7, 4, 7]

theorem mergeSelected_outcome_shelf :
    shelf.Rectangular ∧ shelf.index.Nodup ∧
      mergeSelected shelf handedBack [("input", .string "a")] = .ok
        { columns := [⟨"a", [.string "p", .string "q", .string "S"]⟩,
            ⟨"b", [.null, .bool true, .null]⟩, ⟨"c", [.string "m", .null, .string "n"]⟩]
          index := [4, 2, 7] } ∧
      (∃ result columns, MergedNames shelf handedBack [("input", .string "a")] columns ∧
        PutBack shelf handedBack columns result) ∧
      Unmergeable shelf handedBack [("output", .string "b")] (.unknownColumn "b") := by
  have hshape : shelf.Rectangular := by decide
  have hlabels : shelf.index.Nodup := by decide
  have hmerged : mergeSelected shelf handedBack [("input", .string "a")] = .ok
      { columns := [⟨"a", [.string "p", .string "q", .string "S"]⟩,
          ⟨"b", [.null, .bool true, .null]⟩, ⟨"c", [.string "m", .null, .string "n"]⟩]
        index := [4, 2, 7] } := by decide +kernel
  have hmissing : mergeSelected shelf handedBack [("output", .string "b")] =
      .error (.unknownColumn "b") := by decide +kernel
  exact ⟨hshape, hlabels, hmerged, ⟨_, (mergeSelected_outcome hshape hlabels).2 _ hmerged⟩,
    ((mergeSelected_outcome hshape hlabels).1 _).mp hmissing⟩

end TableRecipe.Recipe
