import Mathlib.Data.List.Induction
import TableRecipe.Proofs.Outcome
import TableRecipe.Table.Edit

/-!
# Columns of a changed table

What inserting or replacing a column does to the columns of a table, to its names, to its labels
and to the cells that one looks up.

* `Table.position?_eq_some_iff`, `Table.find?_of_getElem?` — where a column stands;
* `Table.edit_setColumn_ok` — the table after a column was inserted;
* `Table.ofColumns_eq_ok` — a table built column by column;
* `Edit.names_putCells`, `Table.cells?_putCells` — the names, and the cells of every column;
* `KeepsRow` — columns that kept what they had in a row, `KeepsRow.putCells` — when they do.
-/

namespace TableRecipe

variable {name other : String} {cells : List Value} {columns : List Column} {row : Nat}

namespace Edit

/-! ## The names -/

/-- A name that is there keeps its place, a new one goes last. -/
theorem names_putCells :
    (putCells name cells columns).map (·.name) =
      columns.map (·.name) ++ if columns.any (·.name = name) then [] else [name] := by
  induction columns with
  | nil => simp [putCells]
  | cons column rest ih =>
    by_cases h : column.name = name
    · simp [putCells, h]
    · simp [putCells, h, ih]

/-- A new column goes last. -/
theorem putCells_of_not_mem (h : name ∉ columns.map (·.name)) :
    putCells name cells columns = columns ++ [⟨name, cells⟩] := by
  induction columns with
  | nil => rfl
  | cons column rest ih =>
    obtain ⟨hname, hrest⟩ := List.ne_and_not_mem_of_not_mem_cons h
    rw [putCells, if_neg hname.symm, ih hrest, List.cons_append]

theorem names_prefix_putCells :
    columns.map (·.name) <+: (putCells name cells columns).map (·.name) := by
  rw [names_putCells]
  exact List.prefix_append _ _

theorem mem_putCells {column : Column} (h : column ∈ putCells name cells columns) :
    column = ⟨name, cells⟩ ∨ column ∈ columns := by
  induction columns with
  | nil => simpa [putCells] using h
  | cons first rest ih =>
    by_cases hfirst : first.name = name
    · simp only [putCells, hfirst, if_true, List.mem_cons] at h
      exact h.imp_right (List.mem_cons_of_mem _)
    · simp only [putCells, hfirst, if_false, List.mem_cons] at h
      rcases h with rfl | h
      · exact .inr (List.mem_cons_self ..)
      · exact (ih h).imp_right (List.mem_cons_of_mem _)

/-! ## The cells -/

theorem find?_putCells_self :
    ((putCells name cells columns).find? (·.name = name)).map (·.cells) = some cells := by
  induction columns with
  | nil => simp [putCells]
  | cons column rest ih =>
    by_cases h : column.name = name
    · simp [putCells, h]
    · simp [putCells, h, ih]

theorem find?_putCells_ne (h : other ≠ name) :
    (putCells name cells columns).find? (·.name = other) =
      columns.find? (·.name = other) := by
  induction columns with
  | nil => simp [putCells, h.symm]
  | cons column rest ih =>
    by_cases hc : column.name = name
    · simp [putCells, hc, h.symm]
    · simp only [putCells, hc, if_false, List.find?_cons, ih]

end Edit

namespace Table

variable {table changed : Table} {column : Column} {place : Nat}

theorem has_iff_cells? : table.has name = (table.cells? name).isSome := by
  rw [has, cells?, Option.isSome_map, List.isSome_find?]

theorem cells_eq_ok : table.cells name = .ok cells ↔ table.cells? name = some cells := by
  rw [Table.cells]
  cases table.cells? name <;> simp

theorem cells?_putCells (table : Table) (name other : String) (cells : List Value) :
    ({ table with columns := Edit.putCells name cells table.columns } : Table).cells? other =
      if other = name then some cells else table.cells? other := by
  simp only [cells?]
  by_cases h : other = name
  · subst h
    simpa using Edit.find?_putCells_self
  · simp [h, Edit.find?_putCells_ne h]

theorem has_iff_mem_names : table.has name = true ↔ name ∈ table.names := by
  simp [has, Table.names]

theorem cells_of_has (h : table.has name) :
    table.cells name = .ok ((table.cells? name).getD []) := by
  obtain ⟨cells, hcells⟩ := Option.isSome_iff_exists.mp (has_iff_cells?.symm.trans h)
  rw [cells_eq_ok.mpr hcells, hcells]
  rfl

theorem cells?_mem (h : table.cells? name = some cells) :
    ∃ column ∈ table.columns, column.name = name ∧ column.cells = cells := by
  obtain ⟨column, hcolumn, hcells⟩ := Option.map_eq_some_iff.mp h
  exact ⟨column, List.mem_of_find?_eq_some hcolumn, by simpa using List.find?_some hcolumn, hcells⟩

/-! ## The places of columns -/

theorem exists_position? (h : table.has name) : ∃ place, table.position? name = some place := by
  rw [has, ← List.findIdx?_isSome] at h
  exact Option.isSome_iff_exists.mp h

/-- Where names are distinct, a name stands at one place only. -/
theorem position?_eq_some_iff (hdistinct : table.DistinctNames) :
    table.position? name = some place ↔
      ∃ column, table.columns[place]? = some column ∧ column.name = name := by
  rw [position?, List.findIdx?_eq_some_iff_getElem]
  constructor
  · rintro ⟨hlt, hname, -⟩
    exact ⟨_, List.getElem?_eq_getElem hlt, by simpa using hname⟩
  · rintro ⟨column, hcolumn, rfl⟩
    obtain ⟨hlt, rfl⟩ := List.getElem?_eq_some_iff.mp hcolumn
    refine ⟨hlt, by simp, fun earlier hearlier => ?_⟩
    have hne := List.pairwise_iff_getElem.mp hdistinct earlier place
      (by simpa [Table.names] using Nat.lt_trans hearlier hlt) (by simpa [Table.names] using hlt)
      hearlier
    simpa [Table.names] using hne

theorem find?_of_getElem? (hdistinct : table.DistinctNames)
    (h : table.columns[place]? = some column) :
    table.columns.find? (·.name = column.name) = some column := by
  have hplace := (position?_eq_some_iff hdistinct).mpr ⟨column, h, rfl⟩
  obtain ⟨hlt, -, hbefore⟩ := List.findIdx?_eq_some_iff_getElem.mp hplace
  refine List.find?_eq_some_iff_getElem.mpr
    ⟨by simp, place, hlt, (List.getElem?_eq_some_iff.mp h).2, fun earlier hearlier => ?_⟩
  simpa using hbefore earlier hearlier

/-! ## Inserting a column -/

/-- A column is inserted if it has a cell for every row, and then nothing else changes; the first
column of a table without rows brings rows with it. -/
theorem edit_setColumn_ok :
    table.edit (Edit.setColumn name cells) = .ok changed ↔
      cells.length = (Edit.indexFor table cells).length ∧
        changed = { table with
          index := Edit.indexFor table cells
          columns := Edit.putCells name cells table.columns } := by
  rw [edit, Edit.setColumn, Edit.run_bind, Edit.run_get]
  by_cases h : cells.length = (Edit.indexFor table cells).length
  · simp only [h, if_true, Edit.run_set, Except.ok.injEq, true_and]
    exact eq_comm
  · simp only [h, if_false, Edit.run_throw, false_and, reduceCtorEq]

theorem cells?_setColumn (h : table.edit (Edit.setColumn name cells) = .ok changed) :
    changed.cells? other = if other = name then some cells else table.cells? other := by
  obtain ⟨-, rfl⟩ := edit_setColumn_ok.mp h
  exact cells?_putCells { table with index := Edit.indexFor table cells } name other cells

/-- The column is there after it was inserted. -/
theorem has_of_setColumn (h : table.edit (Edit.setColumn name cells) = .ok changed) :
    changed.has name := by
  rw [has_iff_cells?, cells?_setColumn h, if_pos rfl]
  rfl

theorem dates_of_setColumn (h : table.edit (Edit.setColumn name cells) = .ok changed) :
    changed.dates = table.dates := by
  obtain ⟨-, rfl⟩ := edit_setColumn_ok.mp h
  rfl

/-- Cells for the rows that are there leave the labels as they are. -/
theorem indexFor_of_length (h : cells.length = table.index.length) :
    Edit.indexFor table cells = table.index := by
  rw [Edit.indexFor]
  split
  · rename_i hempty
    simp only [Bool.and_eq_true, List.isEmpty_iff] at hempty
    simp [hempty.2, h]
  · rfl

/-- A table that has columns keeps its labels. -/
theorem indexFor_of_columns (h : table.columns ≠ []) :
    Edit.indexFor table cells = table.index := by
  simp [Edit.indexFor, h]

/-- Inserting a column leaves the labels alone if it has a cell for every row, or if there are
columns already. -/
theorem index_of_setColumn {name : String} {cells : List Value}
    (h : table.edit (Edit.setColumn name cells) = .ok result)
    (hcells : cells.length = table.index.length ∨ table.columns ≠ []) :
    result.index = table.index := by
  obtain ⟨-, rfl⟩ := edit_setColumn_ok.mp h
  rcases hcells with hlength | hcolumns
  · exact indexFor_of_length hlength
  · exact indexFor_of_columns hcolumns

theorem ne_nil_of_cells {name : String} {cells : List Value} (h : table.cells name = .ok cells) :
    table.columns ≠ [] := by
  obtain ⟨column, hmem, -⟩ := cells?_mem (cells_eq_ok.mp h)
  exact List.ne_nil_of_mem hmem

/-- One more column goes behind those of a table. -/
theorem ofColumns_concat (h : ofColumns columns = .ok table) (hname : column.name ∉ table.names)
    (hlength : column.cells.length = (Edit.indexFor table column.cells).length) :
    ofColumns (columns ++ [column]) = .ok { table with
      columns := table.columns ++ [column], index := Edit.indexFor table column.cells } := by
  have hhas : table.has column.name = false := by
    rw [Bool.eq_false_iff, ne_eq, has_iff_mem_names]
    exact hname
  rw [ofColumns, List.foldlM_append, ← ofColumns, h]
  refine bind_eq_ok.mpr ⟨table, rfl, ?_⟩
  rw [List.foldlM_cons, hhas]
  refine bind_eq_ok.mpr ⟨_, edit_setColumn_ok.mpr ⟨hlength, ?_⟩, rfl⟩
  rw [Edit.putCells_of_not_mem hname]

/-- Columns with distinct names and equally many cells are a table, its rows labelled from zero
on. -/
theorem ofColumns_eq_ok {rows : Nat} (hdistinct : (columns.map (·.name)).Nodup)
    (hcells : ∀ column ∈ columns, column.cells.length = rows) : ofColumns columns =
      .ok { columns, index := if columns = [] then [] else List.range rows } := by
  induction columns using List.reverseRecOn with
  | nil => rfl
  | append_singleton init column ih =>
    rw [List.map_append, List.nodup_append] at hdistinct
    obtain ⟨hinit, -, hapart⟩ := hdistinct
    rw [List.forall_mem_append, List.forall_mem_singleton] at hcells
    obtain ⟨hlengths, hlength⟩ := hcells
    have hname : column.name ∉ init.map (·.name) := fun hmem =>
      hapart _ hmem _ (List.mem_singleton_self _) rfl
    have hlabels : Edit.indexFor
        { columns := init, index := if init = [] then [] else List.range rows } column.cells =
          List.range rows := by
      by_cases hempty : init = [] <;> simp [Edit.indexFor, hempty, hlength]
    rw [ofColumns_concat (ih hinit hlengths) hname (by simp [hlabels, hlength]), hlabels]
    simp
@[simp] theorem columns_markDate : (table.markDate name).columns = table.columns := by
  rw [markDate]
  split <;> rfl

@[simp] theorem index_markDate : (table.markDate name).index = table.index := by
  rw [markDate]
  split <;> rfl

theorem mem_insertName {names : List String} :
    other ∈ insertName name names ↔ other = name ∨ other ∈ names := by
  induction names with
  | nil => simp [insertName]
  | cons first rest ih =>
    rw [insertName]
    split
    · simp
    · split
      · rename_i heq
        simp [heq]
      · simp [ih, or_left_comm]

theorem mem_uniteNames {left right : List String} :
    name ∈ uniteNames left right ↔ name ∈ left ∨ name ∈ right := by
  rw [uniteNames]
  induction right generalizing left with
  | nil => simp
  | cons first rest ih =>
    rw [List.foldl_cons, ih, mem_insertName, List.mem_cons, or_comm (a := name = first), or_assoc]

/-- The date marks after a column was marked: those there were, and its own if it is there. -/
theorem mem_dates_markDate :
    other ∈ (table.markDate name).dates ↔
      other ∈ table.dates ∨ (other = name ∧ table.has name = true) := by
  rw [markDate]
  by_cases h : table.has name <;> simp [h, mem_insertName, or_comm]

@[simp] theorem cells?_markDate : (table.markDate name).cells? other = table.cells? other := by
  simp [cells?]

end Table

/-! ## What a row keeps -/

/-- Columns that kept what they had in a row: those there were are there, in their order and with
their cells in the row, and the cell of every further column is null. -/
def KeepsRow (row : Nat) : (before after : List Column) → Prop
  | [], added => ∀ column ∈ added, column.cells[row]? = some .null
  | old :: before, new :: after =>
    new.name = old.name ∧ new.cells[row]? = old.cells[row]? ∧ KeepsRow row before after
  | _ :: _, [] => False

namespace KeepsRow

instance decide (row : Nat) : (before after : List Column) → Decidable (KeepsRow row before after)
  | [], added => inferInstanceAs (Decidable (∀ column ∈ added, column.cells[row]? = some .null))
  | old :: before, new :: after =>
    have := decide row before after
    inferInstanceAs (Decidable (new.name = old.name ∧ new.cells[row]? = old.cells[row]? ∧
      KeepsRow row before after))
  | _ :: _, [] => .isFalse id

theorem refl (row : Nat) (columns : List Column) : KeepsRow row columns columns := by
  induction columns with
  | nil => intro column h; cases h
  | cons column rest ih => exact ⟨rfl, rfl, ih⟩

/-- Replacing cells keeps a row whose cell is the same again, or null if the column is new. -/
theorem putCells {before after : List Column} (h : KeepsRow row before after)
    (hcell : cells[row]? =
      ((before.find? (·.name = name)).map (·.cells[row]?)).getD (some .null)) :
    KeepsRow row before (Edit.putCells name cells after) := by
  induction before generalizing after with
  | nil =>
    -- all columns are new
    intro column hmem
    induction after with
    | nil =>
      obtain rfl : column = ⟨name, cells⟩ := by simpa [Edit.putCells] using hmem
      simpa using hcell
    | cons new after ih =>
      simp only [Edit.putCells] at hmem
      split at hmem
      · rcases List.mem_cons.mp hmem with rfl | hmem
        · simpa using hcell
        · exact h column (List.mem_cons_of_mem _ hmem)
      · rcases List.mem_cons.mp hmem with rfl | hmem
        · exact h column (List.mem_cons_self ..)
        · exact ih (fun c hc => h c (List.mem_cons_of_mem _ hc)) hmem
  | cons old before ih =>
    cases after with
    | nil => exact h.elim
    | cons new after =>
      obtain ⟨hname, hold, hrest⟩ := h
      -- the first column of this name is the one that is replaced
      by_cases hnew : new.name = name
      · have holdName : old.name = name := hname.symm.trans hnew
        simp only [Edit.putCells, hnew, if_true]
        refine ⟨holdName.symm, ?_, hrest⟩
        simpa [holdName] using hcell
      · have holdName : old.name ≠ name := fun e => hnew (hname.trans e)
        simp only [Edit.putCells, hnew, if_false]
        refine ⟨hname, hold, ih hrest ?_⟩
        simpa [holdName] using hcell

/-- A column that was there has its old cell in a row that was kept. -/
theorem find? {before after : List Column} (h : KeepsRow row before after) {old : Column}
    (hold : before.find? (·.name = name) = some old) :
    ∃ new, after.find? (·.name = name) = some new ∧ new.cells[row]? = old.cells[row]? := by
  induction before generalizing after with
  | nil => cases hold
  | cons column before ih =>
    cases after with
    | nil => exact h.elim
    | cons new after =>
      obtain ⟨hname, hcell, hrest⟩ := h
      by_cases hc : column.name = name
      · obtain rfl : column = old := by simpa [hc] using hold
        exact ⟨new, by simp [hname, hc], hcell⟩
      · obtain ⟨new', hnew', hcell'⟩ := ih hrest (by simpa [hc] using hold)
        exact ⟨new', by simpa [hname, hc] using hnew', hcell'⟩

/-- A column that was not there has a null in a row that was kept. -/
theorem find?_of_none {before after : List Column} (h : KeepsRow row before after)
    (hold : before.find? (·.name = name) = none) {new : Column}
    (hnew : after.find? (·.name = name) = some new) : new.cells[row]? = some .null := by
  induction before generalizing after with
  | nil => exact h new (List.mem_of_find?_eq_some hnew)
  | cons column before ih =>
    cases after with
    | nil => exact h.elim
    | cons other after =>
      obtain ⟨hname, -, hrest⟩ := h
      have hc : column.name ≠ name := by
        simpa using (List.find?_eq_none.mp hold) column (List.mem_cons_self ..)
      refine ih hrest (by simpa [hc] using hold) ?_
      simpa [hname, hc] using hnew

/-- A cell of a row that was kept is the old one, a null in a new column. -/
theorem cell_eq {table changed : Table} (h : KeepsRow row table.columns changed.columns)
    {cell : Value} (hcell : changed.cell? name row = some cell) : table.cell name row = cell := by
  obtain ⟨cells, hcells, hat⟩ := Option.bind_eq_some_iff.mp hcell
  obtain ⟨new, hnew, rfl⟩ := Option.map_eq_some_iff.mp hcells
  rw [Table.cell, Table.cell?, Table.cells?]
  rcases hold : table.columns.find? (·.name = name) with _ | old
  · have hnull := h.find?_of_none hold hnew
    simpa [hold] using hnull.symm.trans hat
  · obtain ⟨new', hnew', hsame⟩ := h.find? hold
    obtain rfl : new' = new := Option.some.inj (hnew'.symm.trans hnew)
    simp [hold, ← hsame, hat]

end KeepsRow

end TableRecipe
