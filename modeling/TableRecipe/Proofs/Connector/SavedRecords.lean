import TableRecipe.Proofs.Connector.SavedTables
import TableRecipe.Proofs.Csv

/-!
# Tables saved as records

The connector for files writes a table as comma-separated records, the names and then the rows. The
records tell the texts of the cells only, so a table comes back with its columns and rows, and with
the text of every cell in the place of the cell. Since the names are a record of their own, a table
without rows comes back too.

* `Table.texts` — a table of texts;
* `Files.tableOfRecords_recordsOf` — a table in its records;
* `Files.read_written_csv` — a table that was written into a file, and read.
-/

namespace TableRecipe

/-- the table with the texts of its cells, its rows labelled from zero on -/
def Table.texts (table : Table) : Table where
  columns := table.columns.map fun column =>
    ⟨column.name, column.cells.map fun cell => .string cell.text⟩
  index := List.range table.length

namespace Files

variable {table : Table} {params given : Fields} {path : String} {context : Context} {world : World}

theorem recordsOf_eq (table : Table) : recordsOf table =
    table.names :: (List.range table.length).map fun row =>
      table.names.map fun name => (table.cell name row).text := by
  have htext (name : String) (row : Nat) :
      ((table.cell? name row).map Value.text).getD "" = (table.cell name row).text := by
    rw [Table.cell]
    cases table.cell? name row <;> rfl
  simp only [recordsOf, htext]

/-- Every record has a cell for every column. -/
theorem length_of_mem_recordsOf : ∀ cells ∈ recordsOf table, cells.length = table.columns.length := by
  simp [recordsOf_eq, Table.names]

/-- A table is found again in its records, with the texts of its cells. -/
theorem tableOfRecords_recordsOf (hshape : table.Rectangular) (hdistinct : table.DistinctNames)
    (hcolumns : table.columns ≠ []) : tableOfRecords (recordsOf table) = .ok table.texts := by
  have hread : (table.names.zipIdx.map fun numbered => (⟨numbered.1,
      ((List.range table.length).map fun row =>
        table.names.map fun name => (table.cell name row).text).map fun row =>
          .string ((row[numbered.2]?).getD "")⟩ : Column)) = table.texts.columns := by
    rw [Table.texts, Table.names, List.zipIdx_map, List.map_map]
    conv_rhs => rw [← List.zipIdx_map_fst 0 table.columns, List.map_map]
    refine List.map_congr_left ?_
    rintro ⟨column, place⟩ hplace
    have hcolumn : table.columns[place]? = some column := List.mem_zipIdx_iff_getElem?.mp hplace
    have hcells := Table.cells_eq_map hshape hdistinct (List.mem_of_getElem? hcolumn)
    simp [← hcells, hcolumn, Function.comp_def]
  have hnames : (table.texts.columns.map (·.name)).Nodup := by
    rw [Table.texts, List.map_map]
    exact hdistinct
  have hlengths : ∀ column ∈ table.texts.columns, column.cells.length = table.length := by
    rw [Table.texts, List.forall_mem_map]
    intro column hcolumn
    rw [List.length_map]
    exact hshape column hcolumn
  have hne : table.texts.columns ≠ [] := by simpa [Table.texts] using hcolumns
  rw [recordsOf_eq]
  refine (congrArg Table.ofColumns hread).trans ?_
  rw [Table.ofColumns_eq_ok hnames hlengths, if_neg hne]
  rfl

/-- **Tables saved as records.** Take a rectangular table with at least one column and distinct
names, the first of which does not start with a mark of the byte order; it may have no rows. If it
is written into a file of comma-separated records that can be written, and the file is read, then
both succeed, and the columns come back in their order with as many rows, every cell as its text,
whatever characters are in the names and in the texts. -/
theorem read_written_csv (hshape : table.Rectangular) (hdistinct : table.DistinctNames)
    (hcolumns : table.columns ≠ [])
    (hmark : ∀ name ∈ table.names.head?, Csv.isMarked name.toList = false)
    (htarget : target params = .ok (path, .csv)) (hwritable : world.files.Writable path)
    (hgiven : target given = .ok (path, .csv)) :
    ∃ files, world.files.write? path (.ofText (encode table .csv)) = .ok files ∧
      (write table params).runIn context world = (.ok (), { world with files }) ∧
      (read given).runIn context { world with files } =
        (.ok {
          columns := table.columns.map fun column =>
            ⟨column.name, column.cells.map fun cell => .string cell.text⟩
          index := List.range table.length
          dates := [] }, { world with files }) := by
  obtain ⟨files, hwrite⟩ := hwritable.exists_write? (.ofText (encode table .csv))
  have hrecords : Csv.read? (encode table .csv) = some (recordsOf table) := by
    refine Csv.read?_write (List.length_pos_iff.mpr hcolumns) length_of_mem_recordsOf ?_
    rintro _ ⟨⟩
    exact hmark
  have hdecode : decode (.ofText (encode table .csv)) .csv = .ok table.texts := by
    rw [decode, Content.text?_ofText, Option.bind_some, hrecords]
    exact tableOfRecords_recordsOf hshape hdistinct hcolumns
  refine ⟨files, hwrite, by rw [runIn_write htarget, hwrite], ?_⟩
  rw [runIn_read hgiven (FileSystem.open?_of_write? hwrite), hdecode]
  rfl

/-- a column whose name and cells hold commas, quotes and line ends, or nothing -/
def quoted : Table where
  columns := [⟨"say \"a, b\"", [.null, .string "one\r\ntwo", .list [.string ",", .bool true]]⟩]
  index := [7, 2, 5]

theorem read_written_csv_quoted :
    quoted.Rectangular ∧ quoted.DistinctNames ∧ ∃ files,
      (write quoted [("name", .string "quoted.csv")]).runIn {} {} = (.ok (), { files }) ∧
      (read [("name", .string "quoted.csv")]).runIn {} { files } =
        (.ok {
          columns := [⟨"say \"a, b\"",
            [.string "", .string "one\r\ntwo", .string "[\",\",true]"]⟩]
          index := [0, 1, 2] }, { files }) := by
  have hshape : quoted.Rectangular := by simp [quoted, Table.Rectangular]
  have hdistinct : quoted.DistinctNames := by simp [quoted, Table.DistinctNames, Table.names]
  have hmark : ∀ name ∈ quoted.names.head?, Csv.isMarked name.toList = false := by
    rintro _ ⟨⟩
    rfl
  have htarget : target [("name", .string "quoted.csv")] = .ok ("quoted.csv", .csv) := by
    decide +kernel
  have hwritable : ({} : World).files.Writable "quoted.csv" := ⟨.ofText "", _, rfl⟩
  obtain ⟨files, -, hwrite, hread⟩ := read_written_csv hshape hdistinct (List.cons_ne_nil _ _) hmark
    htarget hwritable htarget
  have hlist : (Value.list [.string ",", .bool true]).text = "[\",\",true]" := by decide +kernel
  refine ⟨hshape, hdistinct, files, hwrite, hread.trans ?_⟩
  simp only [quoted, List.map_cons, List.map_nil, hlist]
  rfl

end Files

end TableRecipe
