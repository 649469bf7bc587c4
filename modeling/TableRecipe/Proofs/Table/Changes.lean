import TableRecipe.Proofs.Table.Columns

/-!
# What changes of a table keep

A change that fails leaves behind what it changed before it failed, so what holds of tables has to
be kept by every part of it.

* `Table.dropped`, `Table.renamed` — the table with a column less, or with one renamed;
* `Edit.Keeps` — a change that keeps a property of tables, also if it fails;
* `Edit.keeps_setColumn` — inserting a column keeps the columns as long as the labels;
* `Table.DrawsFrom` — the labels of another table, and no cells but those of its columns;
* `Edit.keeps_dropColumns`, `Edit.keeps_renameColumn` — the changes that put in no cells.
-/

namespace TableRecipe

variable {α : Type} {motive : Table → Prop}

/-- the table without its first column of a name, and without the date mark -/
def Table.dropped (table : Table) (name : String) : Table :=
  { table with
    columns := table.columns.eraseP (·.name = name)
    dates := table.dates.filter (· ≠ name) }

theorem Table.names_dropped {table : Table} {name : String} :
    (table.dropped name).names = table.names.erase name := by
  simp only [List.erase_eq_eraseP', Table.names, List.eraseP_map, dropped]
  congr 2

/-- the table with its first column of a name renamed; a date mark goes with it -/
def Table.renamed (table : Table) (source target : String) : Table :=
  { table with
    columns := Edit.renameFirst source target table.columns
    dates :=
      if table.isDate source then insertName target (table.dates.filter (· ≠ source))
      else table.dates }

namespace Edit

variable {table : Table}

/-! ## Removing and renaming a column -/

theorem run_dropColumn (name : String) :
    (dropColumn name).run table =
      match table.cells name with
      | .ok cells => (.ok cells, table.dropped name)
      | .error e => (.error e, table) := by
  rw [dropColumn, run_bind, run_get]
  change ((liftM (table.cells name) : Edit (List Value)) >>= _).run table = _
  rw [run_bind, run_liftM]
  cases table.cells name <;> rfl

theorem run_renameColumn_self {source target : String} (h : source = target) :
    (renameColumn source target).run table = (.ok (), table) := by
  rw [renameColumn, if_pos h]
  rfl

theorem run_renameColumn_taken {source target : String} (hsame : source ≠ target)
    (htarget : table.has target = true) :
    (renameColumn source target).run table = (.error (.validation
      s!"cannot rename '{source}' to '{target}': column already exists"), table) := by
  rw [renameColumn, if_neg hsame, run_bind, run_get]
  simp [htarget]

theorem run_renameColumn_missing {source target : String} (hsame : source ≠ target)
    (htarget : table.has target = false) (hsource : table.has source = false) :
    (renameColumn source target).run table = (.error (.unknownColumn source), table) := by
  rw [renameColumn, if_neg hsame, run_bind, run_get]
  simp [htarget, hsource]

theorem run_renameColumn {source target : String} (hsame : source ≠ target)
    (htarget : table.has target = false) (hsource : table.has source = true) :
    (renameColumn source target).run table = (.ok (), table.renamed source target) := by
  rw [renameColumn, if_neg hsame, run_bind, run_get]
  simp [htarget, hsource, Table.renamed]

/-! ## What is kept -/

/-- a change that keeps a property of tables, also if it fails -/
def Keeps (motive : Table → Prop) (change : Edit α) : Prop :=
  ∀ table, motive table → motive (change.run table).2

namespace Keeps

theorem bind {β : Type} {x : Edit α} {f : α → Edit β} (hx : x.Keeps motive)
    (hf : ∀ a, (f a).Keeps motive) : (x >>= f).Keeps motive := by
  intro table h
  have hmiddle := hx table h
  rw [run_bind]
  rcases hrun : x.run table with ⟨_ | a, middle⟩ <;> rw [hrun] at hmiddle
  · exact hmiddle
  · exact hf a middle hmiddle

/-- A change that looks at the table first. -/
theorem get_bind {f : Table → Edit α}
    (hf : ∀ table, motive table → motive ((f table).run table).2) : (get >>= f).Keeps motive := by
  intro table h
  rw [run_bind, run_get]
  exact hf table h

theorem liftM (x : Except Error α) : (MonadLiftT.monadLift x : Edit α).Keeps motive := by
  intro table h
  exact (congrArg (motive ·.2) (run_liftM x)).mpr h

theorem discarded {x : Edit α} (hx : x.Keeps motive) : (discard x).Keeps motive := by
  have hrun : discard x = x >>= fun _ => pure () := rfl
  rw [hrun]
  exact bind hx fun _ _ h => h

theorem forM {change : String → Edit PUnit} (hchange : ∀ name, (change name).Keeps motive)
    (names : List String) : (names.forM change).Keeps motive := by
  induction names with
  | nil => exact fun _ h => h
  | cons name rest ih => exact bind (hchange name) fun _ => ih

/-- A column is removed only if it is there. -/
theorem dropColumn {name : String}
    (hdrop : ∀ table, motive table → table.has name = true → motive (table.dropped name)) :
    (dropColumn name).Keeps motive := by
  intro table h
  rw [run_dropColumn]
  rcases hcells : table.cells name with _ | cells
  · exact h
  · refine hdrop table h ?_
    rw [Table.has_iff_cells?, Table.cells_eq_ok.mp hcells]
    rfl

/-- Columns are removed one after the other. -/
theorem dropColumns (hdrop : ∀ name, (Edit.dropColumn name).Keeps motive) (names : List String) :
    (dropColumns names).Keeps motive := by
  refine .get_bind fun table h => ?_
  refine Keeps.bind (.forM (fun name => .discarded (.liftM _)) names) (fun _ => ?_) table h
  exact .forM (fun name => .discarded (hdrop name)) names

/-- A column is renamed only to a name that is not there. -/
theorem renameColumn {source target : String}
    (hrename : ∀ table, motive table → source ≠ target → table.has target = false →
      table.has source = true → motive (table.renamed source target)) :
    (renameColumn source target).Keeps motive := by
  intro table h
  by_cases hsame : source = target
  · rwa [run_renameColumn_self hsame]
  · by_cases htarget : table.has target
    · rwa [run_renameColumn_taken hsame htarget]
    · by_cases hsource : table.has source
      · rw [run_renameColumn hsame (by simpa using htarget) hsource]
        exact hrename table h hsame (by simpa using htarget) hsource
      · rwa [run_renameColumn_missing hsame (by simpa using htarget) (by simpa using hsource)]

end Keeps

/-- What a change keeps holds of the table that it makes. -/
theorem Keeps.of_edit {change : Edit Unit} {table result : Table} (hchange : change.Keeps motive)
    (h : table.edit change = .ok result) (htable : motive table) : motive result := by
  have hresult := hchange table htable
  rw [Table.edit] at h
  rcases hrun : change.run table with ⟨_ | _, after⟩ <;> rw [hrun] at h hresult
  · cases h
  · exact Except.ok.inj h ▸ hresult

/-- A column is inserted only if it has a cell for every row. -/
theorem keeps_setColumn (name : String) (cells : List Value) :
    (setColumn name cells).Keeps Table.Rectangular := by
  refine .get_bind fun table hrectangular => ?_
  by_cases hlength : cells.length = (indexFor table cells).length
  · rw [if_pos hlength, run_set]
    intro column hmem
    rcases mem_putCells hmem with rfl | hmem
    · exact hlength
    · exact (hrectangular column hmem).trans
        (congrArg List.length (Table.indexFor_of_columns (List.ne_nil_of_mem hmem))).symm
  · rw [if_neg hlength, run_throw]
    exact hrectangular

end Edit

namespace Table

variable {table source result : Table}

/-- a table with the labels of another and no cells but those of its columns -/
structure DrawsFrom (source table : Table) : Prop where
  index : table.index = source.index
  cells : ∀ column ∈ table.columns, ∃ old ∈ source.columns, column.cells = old.cells

theorem DrawsFrom.refl (table : Table) : table.DrawsFrom table :=
  ⟨rfl, fun column hmem => ⟨column, hmem, rfl⟩⟩

theorem DrawsFrom.rectangular (h : source.DrawsFrom table) (hrectangular : source.Rectangular) :
    table.Rectangular := by
  intro column hmem
  obtain ⟨old, hold, hcells⟩ := h.cells column hmem
  rw [hcells, h.index]
  exact hrectangular old hold

theorem rectangular_markDate (h : table.Rectangular) (name : String) :
    (table.markDate name).Rectangular := by
  intro column hmem
  rw [columns_markDate] at hmem
  rw [index_markDate]
  exact h column hmem

theorem drawsFrom_select {names : List String} (h : table.select names = .ok result) :
    table.DrawsFrom result := by
  obtain ⟨columns, hcolumns, h⟩ := bind_eq_ok.mp h
  obtain rfl := pure_eq_ok.mp h
  refine ⟨rfl, fun column hmem => ?_⟩
  obtain ⟨name, -, hname⟩ := mem_of_mapM hcolumns hmem
  obtain ⟨cells, hcells, hname⟩ := bind_eq_ok.mp hname
  obtain rfl := pure_eq_ok.mp hname
  obtain ⟨old, hold, -, rfl⟩ := cells?_mem (cells_eq_ok.mp hcells)
  exact ⟨old, hold, rfl⟩

end Table

namespace Edit

variable {source : Table}

theorem keeps_dropColumn (name : String) : (dropColumn name).Keeps source.DrawsFrom :=
  .dropColumn fun _ h _ =>
    ⟨h.index, fun column hmem => h.cells column (List.mem_of_mem_eraseP hmem)⟩

theorem keeps_dropColumns (names : List String) : (dropColumns names).Keeps source.DrawsFrom :=
  .dropColumns keeps_dropColumn names

/-- The new name takes the place of the first column of the old one. -/
theorem perm_names_renameFirst {origin : String} (target : String) {columns : List Column}
    (h : origin ∈ columns.map (·.name)) :
    ((renameFirst origin target columns).map (·.name)).Perm
      (target :: (columns.map (·.name)).erase origin) := by
  induction columns with
  | nil => cases h
  | cons column rest ih =>
    by_cases hfirst : column.name = origin
    · simp [renameFirst, hfirst]
    · have hrest : origin ∈ rest.map (·.name) :=
        (List.mem_cons.mp h).resolve_left (Ne.symm hfirst)
      rw [renameFirst, if_neg hfirst, List.map_cons, List.map_cons,
        List.erase_cons_tail (by simpa using hfirst)]
      exact ((ih hrest).cons _).trans (.swap ..)

theorem mem_renameFirst {origin target : String} {columns : List Column} {column : Column}
    (h : column ∈ renameFirst origin target columns) :
    ∃ old ∈ columns, column.cells = old.cells := by
  induction columns with
  | nil => cases h
  | cons first rest ih =>
    rw [renameFirst] at h
    split at h
    · rcases List.mem_cons.mp h with rfl | h
      · exact ⟨first, List.mem_cons_self .., rfl⟩
      · exact ⟨column, List.mem_cons_of_mem _ h, rfl⟩
    · rcases List.mem_cons.mp h with rfl | h
      · exact ⟨column, List.mem_cons_self .., rfl⟩
      · obtain ⟨old, hold, hcells⟩ := ih h
        exact ⟨old, List.mem_cons_of_mem _ hold, hcells⟩

theorem keeps_renameColumn (origin target : String) :
    (renameColumn origin target).Keeps source.DrawsFrom := by
  refine .renameColumn fun table h _ _ _ => ⟨h.index, fun column hmem => ?_⟩
  obtain ⟨old, hold, hcells⟩ := mem_renameFirst hmem
  obtain ⟨former, hformer, hsame⟩ := h.cells old hold
  exact ⟨former, hformer, hcells.trans hsame⟩

end Edit

end TableRecipe
