import TableRecipe.Proofs.Fields
import TableRecipe.Proofs.Table.Columns
import TableRecipe.Table.Combine

/-!
# Rows below rows

What `Table.union` keeps of two tables. The rows always come out as they went in, those of the
first table before those of the second, with a null where a table lacks a column. The columns
are found by going through the rows, though, so a table without rows shows no columns to a table
that has some: `Table.shownNames` are the names that come out, `Table.unitedNames` those of both
tables.

* `Table.stacked` — the rows of one table, then those of another, under any names;
* `Table.KeepsColumns`, `Table.KeepsMarks` — when no column and no date mark is lost;
* `Table.union_eq_stacked` — the union, and exactly when it loses nothing.
-/

namespace TableRecipe

variable {name : String} {names : List String} {position : Nat}

namespace Table

variable {table other : Table}

/-! ## Rows as mappings -/

/-- A row has one entry for each column. -/
theorem row_eq (hdistinct : table.DistinctNames) :
    table.row position = table.columns.map fun column =>
      (column.name, (column.cells[position]?).getD .null) := by
  refine Fields.ofPairs_of_nodup ?_
  simpa [Fields.names, Function.comp_def, DistinctNames, Table.names] using hdistinct

theorem names_row (hdistinct : table.DistinctNames) :
    (table.row position).names = table.names := by
  rw [row_eq hdistinct]
  simp [Fields.names, Table.names]

/-- What a row shows under a name is the cell of that column, null where there is none. -/
theorem find?_row (hdistinct : table.DistinctNames) :
    (Fields.find? name (table.row position)).getD .null = table.cell name position := by
  rw [row_eq hdistinct, cell, cell?, cells?]
  induction table.columns with
  | nil => rfl
  | cons column rest ih =>
    by_cases hname : column.name = name
    · simp [Fields.find?, hname]
    · simpa [Fields.find?, hname] using ih

theorem length_rows : table.rows.length = table.length := by simp [rows]

/-! ## Names in order of first occurrence -/

/-- the names that are not among those seen -/
def unseen (seen names : List String) : List String := names.filter fun name => !seen.contains name

theorem mem_unseen {seen : List String} :
    name ∈ unseen seen names ↔ name ∈ names ∧ name ∉ seen := by
  simp [unseen]

theorem unseen_eq_nil_iff {seen : List String} : unseen seen names = [] ↔ names ⊆ seen := by
  simp [unseen, List.filter_eq_nil_iff, List.subset_def]

theorem unseen_nil : unseen [] names = names := by simp [unseen]

/-- Names that do not repeat are added but for those seen. -/
theorem foldl_add_of_nodup {seen : List String} (h : names.Nodup) :
    names.foldl (fun seen name => if seen.contains name then seen else seen ++ [name]) seen =
      seen ++ unseen seen names := by
  induction names generalizing seen with
  | nil => simp [unseen]
  | cons first rest ih =>
    obtain ⟨hfirst, hrest⟩ := List.nodup_cons.mp h
    rw [List.foldl_cons, ih hrest]
    by_cases hseen : first ∈ seen
    · simp [unseen, hseen]
    · -- the first name is seen from now on, but it is not among the rest
      have hunseen : unseen (seen ++ [first]) rest = unseen seen rest := by
        refine List.filter_congr fun name hmem => ?_
        have hne : name ≠ first := fun heq => hfirst (heq ▸ hmem)
        simp [hne]
      simp only [List.contains_iff_mem, hseen, if_false, hunseen]
      simp [unseen, hseen]

/-- Rows that show the same names add them once, if there is a row at all. -/
theorem foldl_add_rows {seen : List String} {rows : List Fields} (h : names.Nodup)
    (hrows : ∀ row ∈ rows, row.names = names) :
    (rows.flatMap Fields.names).foldl
        (fun seen name => if seen.contains name then seen else seen ++ [name]) seen =
      if rows.isEmpty then seen else seen ++ unseen seen names := by
  induction rows generalizing seen with
  | nil => rfl
  | cons row rest ih =>
    obtain ⟨hrow, hrest⟩ := List.forall_mem_cons.mp hrows
    have hagain : unseen (seen ++ unseen seen names) names = [] := by
      refine unseen_eq_nil_iff.mpr fun name hmem => ?_
      by_cases hseen : name ∈ seen
      · simp [hseen]
      · simp [mem_unseen, hseen, hmem]
    rw [List.flatMap_cons, List.foldl_append, hrow, foldl_add_of_nodup h, ih hrest, hagain]
    simp

/-! ## The tables put together -/

/-- the names of a table, then those of another that it lacks -/
def unitedNames (table other : Table) : List String := table.names ++ unseen table.names other.names

/-- the rows of a table, then those of another, labelled anew: under each name the cells of either
table, null where it lacks the column -/
def stacked (names : List String) (table other : Table) : Table where
  columns := names.map fun name =>
    ⟨name, (List.range table.length).map (table.cell name) ++
      (List.range other.length).map (other.cell name)⟩
  index := List.range (table.length + other.length)
  dates := uniteNames table.dates other.dates

/-- the names that the rows show: a table without rows shows none, unless neither has rows -/
def shownNames (table other : Table) : List String :=
  if table.length = 0 ∧ other.length ≠ 0 then other.names
  else if other.length = 0 ∧ table.length ≠ 0 then table.names
  else unitedNames table other

/-- whether the columns of a table without rows are all found, in their places, in the other
table, if that has rows -/
def KeepsColumns (table other : Table) : Prop :=
  (table.length = 0 → other.length ≠ 0 → table.names <+: other.names) ∧
    (other.length = 0 → table.length ≠ 0 → other.names ⊆ table.names)

/-- whether the columns that a table without rows marks as dates are all found in the other table,
if that has rows -/
def KeepsMarks (table other : Table) : Prop :=
  (table.length = 0 → other.length ≠ 0 → table.dates ⊆ other.names) ∧
    (other.length = 0 → table.length ≠ 0 → other.dates ⊆ table.names)

instance : Decidable (KeepsMarks table other) := inferInstanceAs (Decidable (_ ∧ _))

@[simp] theorem names_stacked : (stacked names table other).names = names := by
  simp [stacked, Table.names, Function.comp_def]

/-- The rows show the names that come out. -/
theorem distinctNames_rows (hdistinct : table.DistinctNames) (hother : other.DistinctNames)
    (hrows : table.length ≠ 0 ∨ other.length ≠ 0) :
    distinctNames ((table.rows ++ other.rows).flatMap Fields.names) = shownNames table other := by
  have hnames : ∀ row ∈ table.rows, row.names = table.names := by
    simp [rows, names_row hdistinct]
  have hotherNames : ∀ row ∈ other.rows, row.names = other.names := by
    simp [rows, names_row hother]
  have hempty (table : Table) : table.rows.isEmpty = true ↔ table.length = 0 := by
    rw [List.isEmpty_iff_length_eq_zero, length_rows]
  rw [distinctNames, List.flatMap_append, List.foldl_append, foldl_add_rows hdistinct hnames,
    foldl_add_rows hother hotherNames]
  simp only [hempty, shownNames, unitedNames, unseen_nil, List.nil_append]
  by_cases hleft : table.length = 0 <;> by_cases hright : other.length = 0 <;>
    simp_all [unseen_nil]

theorem union_eq_stacked_shownNames (hdistinct : table.DistinctNames)
    (hother : other.DistinctNames) :
    table.union other = stacked (shownNames table other) table other := by
  rw [union]
  by_cases hrows : table.length = 0 ∧ other.length = 0
  · -- no rows at all: the names are put together as such
    have hempty : (table.rows ++ other.rows).isEmpty = true := by
      rw [List.isEmpty_iff_length_eq_zero, List.length_append, length_rows, length_rows, hrows.1,
        hrows.2]
    simp only [hempty, if_true, foldl_add_of_nodup hother]
    simp [stacked, shownNames, unitedNames, hrows]
  · have hempty : (table.rows ++ other.rows).isEmpty = false := by
      rw [Bool.eq_false_iff, ne_eq, List.isEmpty_iff_length_eq_zero, List.length_append,
        length_rows, length_rows]
      omega
    have hshown := distinctNames_rows hdistinct hother (by omega)
    simp only [hempty, Bool.false_eq_true, if_false, ofRows, hshown, stacked, List.length_append,
      length_rows]
    simp [rows, Function.comp_def, find?_row hdistinct, find?_row hother]

/-- The names that the rows show are those of both tables exactly when no column is lost. -/
theorem shownNames_eq_unitedNames_iff (hother : other.DistinctNames) :
    shownNames table other = unitedNames table other ↔ KeepsColumns table other := by
  have hprefix : other.names = unitedNames table other ↔ table.names <+: other.names := by
    refine ⟨fun h => ⟨_, h.symm⟩, fun ⟨rest, hrest⟩ => ?_⟩
    -- what follows the names of the first table are new names, since no name repeats
    have hnodup : (table.names ++ rest).Nodup := hrest ▸ hother
    have hnew : ∀ name ∈ rest, name ∉ table.names :=
      fun name hmem htable => (List.nodup_append.mp hnodup).2.2 name htable name hmem rfl
    have hunseen : unseen table.names rest = rest := by
      refine List.filter_eq_self.mpr fun name hmem => ?_
      simpa using hnew name hmem
    have hown : unseen table.names table.names = [] := unseen_eq_nil_iff.mpr fun _ h => h
    rw [unitedNames, ← hrest]
    rw [unseen, List.filter_append, ← unseen, ← unseen, hunseen, hown, List.nil_append]
  have hsubset : table.names = unitedNames table other ↔ other.names ⊆ table.names := by
    rw [unitedNames, List.self_eq_append_right, unseen_eq_nil_iff]
  rw [shownNames, KeepsColumns]
  by_cases hleft : table.length = 0 <;> by_cases hright : other.length = 0 <;>
    simp [hleft, hright, hprefix, hsubset]

/-- Date marks of columns are marks of columns again exactly when no marked column is lost. -/
theorem dates_subset_shownNames_iff (hdates : table.dates ⊆ table.names)
    (hother : other.dates ⊆ other.names) :
    uniteNames table.dates other.dates ⊆ shownNames table other ↔ KeepsMarks table other := by
  have hunited : uniteNames table.dates other.dates ⊆ unitedNames table other := by
    intro name hname
    rw [unitedNames, List.mem_append, mem_unseen]
    by_cases htable : name ∈ table.names
    · exact .inl htable
    · rcases mem_uniteNames.mp hname with h | h
      · exact (htable (hdates h)).elim
      · exact .inr ⟨hother h, htable⟩
  have hboth (names : List String) : uniteNames table.dates other.dates ⊆ names ↔
      table.dates ⊆ names ∧ other.dates ⊆ names := by
    simp only [List.subset_def, mem_uniteNames]
    exact ⟨fun h => ⟨fun hl => h (.inl hl), fun hr => h (.inr hr)⟩,
      fun h _ hname => hname.elim (h.1 ·) (h.2 ·)⟩
  rw [shownNames, KeepsMarks]
  by_cases hleft : table.length = 0 <;> by_cases hright : other.length = 0
  · simp [hleft, hright, hunited]
  · simp [hleft, hright, hboth, hother]
  · simp [hleft, hright, hboth, hdates]
  · simp [hleft, hright, hunited]

/-- The union of two tables has the rows of the first, then those of the second, cell by cell.
It has the columns of both, those of the first and then those it lacks, exactly when no table
without rows has columns of its own beside a table with rows; and marks of columns as dates are
marks of its columns exactly when no such table has marked columns of its own. -/
theorem union_eq_stacked (hdistinct : table.DistinctNames) (hother : other.DistinctNames)
    (hdates : table.dates ⊆ table.names) (hotherDates : other.dates ⊆ other.names) :
    table.union other = stacked (shownNames table other) table other ∧
      (table.union other = stacked (unitedNames table other) table other ↔
        KeepsColumns table other) ∧
      ((table.union other).dates ⊆ (table.union other).names ↔ KeepsMarks table other) := by
  have hunion := union_eq_stacked_shownNames hdistinct hother
  refine ⟨hunion, ?_, ?_⟩
  · rw [hunion, ← shownNames_eq_unitedNames_iff hother]
    refine ⟨fun h => ?_, fun h => h ▸ rfl⟩
    simpa using congrArg Table.names h
  · rw [hunion, names_stacked]
    exact dates_subset_shownNames_iff hdates hotherDates

/-- orders with their days -/
def orders : Table where
  columns := [⟨"day", [.string "2024-05-01", .string "2024-05-02"]⟩,
    ⟨"item", [.string "tea", .string "milk"]⟩]
  index := [0, 1]
  dates := ["day"]

/-- a table of prices -/
def prices : Table where
  columns := [⟨"item", [.string "tea"]⟩, ⟨"price", [.ofInt 3]⟩]
  index := [0]

theorem union_eq_stacked_orders :
    orders.union prices = stacked ["day", "item", "price"] orders prices ∧
      (orders.union prices).dates ⊆ (orders.union prices).names := by
  obtain ⟨-, hcolumns, hmarks⟩ := @union_eq_stacked orders prices
    (by simp [DistinctNames, Table.names, orders]) (by simp [DistinctNames, Table.names, prices])
    (by simp [Table.names, orders]) (by simp [prices])
  have hrows : orders.length ≠ 0 ∧ prices.length ≠ 0 := by decide
  exact ⟨hcolumns.mpr ⟨fun h => absurd h hrows.1, fun h => absurd h hrows.2⟩,
    hmarks.mpr ⟨fun h => absurd h hrows.1, fun h => absurd h hrows.2⟩⟩

/-- A table of a header only loses its columns to one with rows, and its date mark is left without
a column. -/
theorem header_lost_in_union :
    let header : Table := { columns := [⟨"day", []⟩, ⟨"item", []⟩], dates := ["day"] }
    let column : Table := { columns := [⟨"price", [.ofInt 3]⟩], index := [0] }
    header.Rectangular ∧ column.Rectangular ∧ header.DistinctNames ∧ column.DistinctNames ∧
      header.dates ⊆ header.names ∧
      unitedNames header column = ["day", "item", "price"] ∧
      (header.union column).names = ["price"] ∧ (header.union column).dates = ["day"] := by
  simp only [Rectangular, DistinctNames]
  decide +kernel

end Table

end TableRecipe
