import Mathlib.Data.List.TakeWhile
import TableRecipe.Connector.Files
import TableRecipe.Proofs.FileSystem
import TableRecipe.Proofs.Json.PlainText
import TableRecipe.Proofs.Json.WrittenValues
import TableRecipe.Proofs.Outcome
import TableRecipe.Proofs.Table.Union

/-!
# Tables that were saved

The connector for files writes a table as one list of rows, or as one row on every line, and reads
it back. Every row is a mapping that tells the names, so a table with rows comes back with its
columns; its labels and marks are not written. The reader refuses what nests too deeply, and rows
and lists of rows nest deeper than the cells in them.

* `Table.ofRows_rows` — a table in its rows;
* `Content.lines_ofText` — lines in the text of a file;
* `Files.decode_encode` — a table in the content of a file;
* `Files.read_written` — a table that was written into a file, and read.
-/

namespace TableRecipe

/-! ## Rows of a table -/

namespace Table

variable {table : Table}

theorem rows_ne_nil (hrows : table.index ≠ []) : table.rows.isEmpty = false := by
  rw [Bool.eq_false_iff, ne_eq, List.isEmpty_iff_length_eq_zero, length_rows, length,
    List.length_eq_zero_iff]
  exact hrows

/-- The cells of a column are found under its name. -/
theorem cells_eq_map (hshape : table.Rectangular) (hdistinct : table.DistinctNames)
    {column : Column} (hcolumn : column ∈ table.columns) :
    (List.range table.length).map (table.cell column.name) = column.cells := by
  have hcells : table.cells? column.name = some column.cells := by
    obtain ⟨place, hplace⟩ := List.mem_iff_getElem?.mp hcolumn
    rw [cells?, find?_of_getElem? hdistinct hplace]
    rfl
  refine List.ext_getElem (by simp [hshape column hcolumn, length]) fun position _ hlt => ?_
  rw [List.getElem_map, List.getElem_range, cell, cell?, hcells, Option.bind_some,
    List.getElem?_eq_getElem hlt, Option.getD_some]

/-- A table with rows is found again in them, with its rows labelled anew and no marks. -/
theorem ofRows_rows (hshape : table.Rectangular) (hdistinct : table.DistinctNames)
    (hrows : table.index ≠ []) :
    ofRows table.rows = { columns := table.columns, index := List.range table.length } := by
  have hnames : distinctNames (table.rows.flatMap Fields.names) = table.names := by
    rw [distinctNames, foldl_add_rows hdistinct, rows_ne_nil hrows]
    · simp [unseen_nil]
    · simp [rows, names_row hdistinct]
  have hcolumns : table.columns.map (fun column => (⟨column.name, table.rows.map fun row =>
      (Fields.find? column.name row).getD .null⟩ : Column)) = table.columns := by
    refine (List.map_congr_left fun column hcolumn => ?_).trans (List.map_id _)
    rw [rows, List.map_map]
    simp only [Function.comp_def, find?_row hdistinct]
    rw [cells_eq_map hshape hdistinct hcolumn]
    rfl
  rw [ofRows, hnames, length_rows, names, List.map_map]
  exact congrArg (Table.mk · _ _) hcolumns

/-- What the entries of all rows satisfy is what all cells satisfy. -/
theorem forall_entries_iff {p : Value → Prop} (hshape : table.Rectangular)
    (hdistinct : table.DistinctNames) :
    (∀ row ∈ table.rows, ∀ entry ∈ row, p entry.2) ↔
      ∀ column ∈ table.columns, ∀ cell ∈ column.cells, p cell := by
  constructor
  · intro h column hcolumn cell hcell
    obtain ⟨position, hlt, rfl⟩ := List.mem_iff_getElem.mp hcell
    have hposition : position < table.length := by
      rw [length, ← hshape column hcolumn]
      exact hlt
    have hrow : table.row position ∈ table.rows :=
      List.mem_map_of_mem (List.mem_range.mpr hposition)
    have hentry : (column.name, (column.cells[position]?).getD .null) ∈ table.row position := by
      rw [row_eq hdistinct]
      exact List.mem_map_of_mem hcolumn
    simpa [List.getElem?_eq_getElem hlt] using h _ hrow _ hentry
  · intro h row hrow entry hentry
    obtain ⟨position, hposition, rfl⟩ := List.mem_map.mp hrow
    rw [row_eq hdistinct] at hentry
    obtain ⟨column, hcolumn, rfl⟩ := List.mem_map.mp hentry
    have hlt : position < column.cells.length := by
      rw [hshape column hcolumn]
      exact List.mem_range.mp hposition
    dsimp only
    rw [List.getElem?_eq_getElem hlt, Option.getD_some]
    exact h column hcolumn _ (List.getElem_mem hlt)

end Table

/-! ## Lines -/

namespace Content

variable {lines : List (List Char)} {items line : List Char}

/-- the pieces between line ends -/
def pieces {α : Type} (lineEnd : α) [DecidableEq α] (items : List α) : List (List α) :=
  items.foldr (fun item pieces =>
    if item = lineEnd then [] :: pieces
    else match pieces with
      | piece :: rest => (item :: piece) :: rest
      | [] => [[item]]) [[]]

theorem splitLines_eq {α : Type} [DecidableEq α] (lineEnd carriageReturn : α) (items : List α) :
    splitLines lineEnd carriageReturn items =
      let ended := (pieces lineEnd items).dropLast.map fun piece =>
        if piece.getLast? = some carriageReturn then piece.dropLast else piece
      match (pieces lineEnd items).getLast? with
      | some (item :: rest) => ended ++ [item :: rest]
      | _ => ended := by
  unfold splitLines pieces
  rfl

/-- A line is the first piece. -/
theorem pieces_append (h : '\n' ∉ line) :
    pieces '\n' (line ++ '\n' :: items) = line :: pieces '\n' items := by
  induction line with
  | nil => rfl
  | cons c line ih =>
    obtain ⟨hc, hline⟩ := List.ne_and_not_mem_of_not_mem_cons h
    rw [List.cons_append, pieces, List.foldr_cons, ← pieces, ih hline, if_neg (Ne.symm hc)]

theorem pieces_flatMap (h : ∀ line ∈ lines, '\n' ∉ line) :
    pieces '\n' (lines.flatMap (· ++ ['\n'])) = lines ++ [[]] := by
  induction lines with
  | nil => rfl
  | cons line rest ih =>
    obtain ⟨hline, hrest⟩ := List.forall_mem_cons.mp h
    rw [List.flatMap_cons, List.append_assoc, List.singleton_append, pieces_append hline, ih hrest]
    rfl

/-- Plain lines with their ends are taken apart again. -/
theorem splitLines_flatMap (h : ∀ line ∈ lines, Plain line) :
    splitLines '\n' '\r' (lines.flatMap (· ++ ['\n'])) = lines := by
  have hend : ∀ line ∈ lines, '\n' ∉ line := fun line hline hmem =>
    absurd (h line hline _ hmem) (by decide)
  have hreturn : ∀ line ∈ lines, line.getLast? ≠ some '\r' := fun line hline hlast =>
    absurd (h line hline _ (List.mem_of_getLast? hlast)) (by decide)
  rw [splitLines_eq, pieces_flatMap hend, List.getLast?_concat, List.dropLast_concat]
  refine (List.map_congr_left fun line hline => ?_).trans (List.map_id _)
  rw [if_neg (hreturn line hline)]
  rfl

theorem toList_foldl_append (start : String) (texts : List String) :
    (texts.foldl (· ++ ·) start).toList = start.toList ++ texts.flatMap String.toList := by
  induction texts generalizing start with
  | nil => simp
  | cons text rest ih => rw [List.foldl_cons, ih, List.flatMap_cons, String.toList_append,
      List.append_assoc]

/-- Plain texts, a line each, are the lines of a file. -/
theorem lines_ofText {texts : List String} (h : ∀ text ∈ texts, Plain text.toList) :
    (ofText (String.join (texts.map (· ++ "\n")))).lines = texts.map some := by
  have hchars : (String.join (texts.map (· ++ "\n"))).toList =
      (texts.map String.toList).flatMap (· ++ ['\n']) := by
    rw [String.join, toList_foldl_append, List.flatMap_map, List.flatMap_map]
    simp
  have hplain : ∀ line ∈ texts.map String.toList, Plain line := by simpa using h
  rw [lines, text?_ofText]
  dsimp only
  rw [hchars, splitLines_flatMap hplain, List.map_map]
  simp [Function.comp_def]

end Content

/-! ## Saved tables -/

theorem Split.trim_cons_ne_nil {c : Char} {cs : List Char} (h : Letter.isBlank c = false) :
    (Split.trim (c :: cs)).isEmpty = false := by
  rw [Bool.eq_false_iff, ne_eq, List.isEmpty_iff, Split.trim, Split.trimStart, Split.trimEnd,
    List.dropWhile_cons_of_neg (by simp [h]), List.reverse_eq_nil_iff, List.dropWhile_eq_nil_iff]
  intro hblank
  rw [hblank c (by simp)] at h
  cases h

namespace Files

variable {table : Table} {format : Format} {params : Fields} {path : String} {row : Fields}
  {rows : List Fields}

/-- how many lists and mappings stand around a cell in a file -/
def Format.around : Format → Nat
  | .csv => 0
  | .json => 2
  | .jsonLines => 1

theorem read?_json {value : Value} (h : value.Readable) :
    Json.read? value.json = if value.nesting ≤ Json.maxDepth then some value else none := by
  rw [Json.read?, Value.json, String.toList_ofList]
  exact Json.readChars?_eq (Json.reads_write value h)

/-- The line of a row is read back, or refused if the row nests too deeply. -/
theorem rowOfLine_json (h : (Value.object row).Readable) (number : Nat) :
    rowOfLine (some (Value.object row).json) number =
      if (Value.object row).nesting ≤ Json.maxDepth then .ok (some row)
      else .error jsonFailure := by
  have htrim : (Split.trim (Value.object row).json.toList).isEmpty = false := by
    rw [Value.json, String.toList_ofList, Json.write]
    exact Split.trim_cons_ne_nil rfl
  rw [rowOfLine, htrim, if_neg Bool.false_ne_true, read?_json h]
  by_cases hdepth : (Value.object row).nesting ≤ Json.maxDepth
  · rw [if_pos hdepth, if_pos hdepth]
    rfl
  · rw [if_neg hdepth, if_neg hdepth]

/-- All lines are read back, or one of them is refused. -/
theorem mapM_rowOfLine (h : ∀ row ∈ rows, (Value.object row).Readable) (start : Nat) :
    ((rows.map fun row => some (Value.object row).json).zipIdx start).mapM
        (fun (line, place) => rowOfLine line (place + 1)) =
      if ∀ row ∈ rows, (Value.object row).nesting ≤ Json.maxDepth then .ok (rows.map some)
      else .error jsonFailure := by
  induction rows generalizing start with
  | nil => rfl
  | cons row rest ih =>
    obtain ⟨hrow, hrest⟩ := List.forall_mem_cons.mp h
    rw [List.map_cons, List.zipIdx_cons, List.mapM_cons]
    simp only [rowOfLine_json hrow, ih hrest, List.forall_mem_cons]
    by_cases hdepth : (Value.object row).nesting ≤ Json.maxDepth
    · by_cases hdepths : ∀ row ∈ rest, (Value.object row).nesting ≤ Json.maxDepth
      · rw [if_pos hdepth, if_pos hdepths, if_pos ⟨hdepth, hdepths⟩]
        rfl
      · rw [if_pos hdepth, if_neg hdepths, if_neg (mt And.right hdepths)]
        rfl
    · rw [if_neg hdepth, if_neg (mt And.left hdepth)]
      rfl

/-- The rows in a list are taken from it. -/
theorem rowsOfList_map (rows : List Fields) : rowsOfList (rows.map .object) = .ok rows := by
  have hrows : ∀ start, ((rows.map Value.object).zipIdx start).mapM
      (fun numbered => rowOf numbered.1 (numbered.2 + 1)) = .ok rows := by
    induction rows with
    | nil => exact fun _ => rfl
    | cons row rest ih =>
      intro start
      rw [List.map_cons, List.zipIdx_cons, List.mapM_cons, ih]
      rfl
  exact hrows 0

/-- The rows of a table are readable if its cells are. -/
theorem readable_rows (hdistinct : table.DistinctNames) (hshape : table.Rectangular)
    (hcells : ∀ column ∈ table.columns, ∀ cell ∈ column.cells, cell.Readable) :
    ∀ row ∈ table.rows, (Value.object row).Readable := by
  intro row hrow
  refine ⟨?_, Value.readableEntries_iff.mpr ?_⟩
  · obtain ⟨position, -, rfl⟩ := List.mem_map.mp hrow
    rw [Table.names_row hdistinct]
    exact hdistinct
  · exact (Table.forall_entries_iff hshape hdistinct).mpr hcells row hrow

/-- The rows of a table nest one deeper than its cells. -/
theorem nesting_rows_iff (hdistinct : table.DistinctNames) (hshape : table.Rectangular) {n : Nat} :
    (∀ row ∈ table.rows, (Value.object row).nesting ≤ n + 1) ↔
      ∀ column ∈ table.columns, ∀ cell ∈ column.cells, cell.nesting + 1 ≤ n + 1 := by
  simp only [Value.nesting, Nat.add_le_add_iff_right, Value.nestingOfEntries_le_iff]
  exact Table.forall_entries_iff (p := (·.nesting ≤ n)) hshape hdistinct

/-- The list of the rows nests two deeper than the cells. -/
theorem nesting_list_iff (hdistinct : table.DistinctNames) (hshape : table.Rectangular) {n : Nat} :
    (Value.list (table.rows.map .object)).nesting ≤ n + 2 ↔
      ∀ column ∈ table.columns, ∀ cell ∈ column.cells, cell.nesting + 2 ≤ n + 2 := by
  rw [Value.nesting, Nat.add_le_add_iff_right (n := 1), Value.nestingOfItems_le_iff,
    List.forall_mem_map, nesting_rows_iff hdistinct hshape]
  simp only [Nat.add_le_add_iff_right]

section

variable (hshape : table.Rectangular) (hdistinct : table.DistinctNames) (hrows : table.index ≠ [])
  (hcells : ∀ column ∈ table.columns, ∀ cell ∈ column.cells, cell.Readable)
include hshape hdistinct hrows hcells

/-- A table that was saved line by line. -/
theorem decode_encode_lines : decode (.ofText (encode table .jsonLines)) .jsonLines =
    if ∀ column ∈ table.columns, ∀ cell ∈ column.cells, cell.nesting + 1 ≤ Json.maxDepth then
      .ok { columns := table.columns, index := List.range table.length }
    else .error jsonFailure := by
  have hplain : ∀ text ∈ table.rows.map fun row => (Value.object row).json, Plain text.toList := by
    intro text htext
    obtain ⟨row, -, rfl⟩ := List.mem_map.mp htext
    exact Value.plain_key _
  have hlines : (Content.ofText (encode table .jsonLines)).lines =
      table.rows.map fun row => some (Value.object row).json := by
    have h := Content.lines_ofText hplain
    rw [List.map_map, List.map_map] at h
    exact h
  have hnesting : (∀ row ∈ table.rows, (Value.object row).nesting ≤ Json.maxDepth) ↔
      ∀ column ∈ table.columns, ∀ cell ∈ column.cells, cell.nesting + 1 ≤ Json.maxDepth :=
    nesting_rows_iff hdistinct hshape
  rw [decode, hlines, tableOfLines, mapM_rowOfLine (readable_rows hdistinct hshape hcells)]
  by_cases hdepth : ∀ column ∈ table.columns, ∀ cell ∈ column.cells,
      cell.nesting + 1 ≤ Json.maxDepth
  · rw [if_pos (hnesting.mpr hdepth), if_pos hdepth, ← Table.ofRows_rows hshape hdistinct hrows]
    change Except.ok (Table.ofRows ((table.rows.map some).filterMap id)) = _
    rw [List.filterMap_map, Function.id_comp, List.filterMap_some]
  · rw [if_neg (mt hnesting.mp hdepth), if_neg hdepth]
    rfl

/-- A table that was saved as one list. -/
theorem decode_encode_list : decode (.ofText (encode table .json)) .json =
    if ∀ column ∈ table.columns, ∀ cell ∈ column.cells, cell.nesting + 2 ≤ Json.maxDepth then
      .ok { columns := table.columns, index := List.range table.length }
    else .error jsonFailure := by
  have hreadable : (Value.list (table.rows.map .object)).Readable := by
    refine Value.readableItems_iff.mpr fun item hitem => ?_
    obtain ⟨row, hrow, rfl⟩ := List.mem_map.mp hitem
    exact readable_rows hdistinct hshape hcells row hrow
  have hnesting : (Value.list (table.rows.map .object)).nesting ≤ Json.maxDepth ↔
      ∀ column ∈ table.columns, ∀ cell ∈ column.cells, cell.nesting + 2 ≤ Json.maxDepth :=
    nesting_list_iff hdistinct hshape
  have hread : Json.read? (encode table .json) =
      if (Value.list (table.rows.map .object)).nesting ≤ Json.maxDepth then
        some (.list (table.rows.map .object)) else none := by
    rw [Json.read?, encode, String.toList_ofList]
    exact Json.readChars?_eq (Json.reads_writeIndented 0 _ hreadable)
  rw [decode, Content.text?_ofText, Option.bind_some, hread]
  by_cases hdepth : ∀ column ∈ table.columns, ∀ cell ∈ column.cells,
      cell.nesting + 2 ≤ Json.maxDepth
  · rw [if_pos (hnesting.mpr hdepth), if_pos hdepth, ← Table.ofRows_rows hshape hdistinct hrows]
    simp only [tableOfDocument, rowsOfList_map]
    rfl
  · rw [if_neg (mt hnesting.mp hdepth), if_neg hdepth]

/-- A table that was saved, in either format. -/
theorem decode_encode (hformat : format ≠ .csv) : decode (.ofText (encode table format)) format =
    if ∀ column ∈ table.columns, ∀ cell ∈ column.cells,
        cell.nesting + format.around ≤ Json.maxDepth then
      .ok { columns := table.columns, index := List.range table.length }
    else .error jsonFailure := by
  cases format with
  | csv => exact absurd rfl hformat
  | json => exact decode_encode_list hshape hdistinct hrows hcells
  | jsonLines => exact decode_encode_lines hshape hdistinct hrows hcells

end

theorem runIn_files {context : Context} {world : World} :
    Engine.files.runIn context world = (.ok world.files, world) :=
  rfl

theorem runIn_write {context : Context} {world : World}
    (htarget : target params = .ok (path, format)) :
    (write table params).runIn context world =
      match world.files.write? path (.ofText (encode table format)) with
      | .error failure => (.error (refusal format failure), world)
      | .ok files => (.ok (), { world with files }) := by
  rw [write, Engine.runIn_bind, Engine.runIn_ofExcept, htarget]
  dsimp only
  rw [Engine.runIn_bind, runIn_files]
  dsimp only
  cases world.files.write? path (.ofText (encode table format)) <;> rfl

theorem runIn_read {context : Context} {world : World} {content : Content}
    (htarget : target params = .ok (path, format))
    (hopen : world.files.open? path = .ok (.ok content)) :
    (read params).runIn context world = (decode content format, world) := by
  rw [read, Engine.runIn_bind, Engine.runIn_ofExcept, htarget]
  dsimp only
  rw [Engine.runIn_bind, runIn_files]
  dsimp only
  rw [hopen]
  exact Engine.runIn_ofExcept _

/-- **Saved tables.** Take a rectangular table with distinct names and at least one row, whose cells
are readable: no mapping in them repeats a name, and numbers read back. If it was written into a
file, as one list or line by line, and the file is read, the columns come back as they were, in
their order and with their cells, the rows labelled from zero on, and no column marked as a date;
unless a cell nests too deeply for the reader, who allows for the row or for the list and the row
around it. Then reading fails. -/
theorem read_written {context : Context} {given : Fields} {world after : World}
    (hshape : table.Rectangular) (hdistinct : table.DistinctNames) (hrows : table.index ≠ [])
    (hcells : ∀ column ∈ table.columns, ∀ cell ∈ column.cells, cell.Readable)
    (htarget : target params = .ok (path, format)) (hformat : format ≠ .csv)
    (hwrite : (write table params).runIn context world = (.ok (), after))
    (hgiven : target given = .ok (path, format)) :
    (read given).runIn context after =
      (if ∀ column ∈ table.columns, ∀ cell ∈ column.cells,
          cell.nesting + format.around ≤ Json.maxDepth then
        .ok { columns := table.columns, index := List.range table.length, dates := [] }
      else .error jsonFailure, after) := by
  rw [runIn_write htarget] at hwrite
  rcases hfiles : world.files.write? path (.ofText (encode table format)) with failure | files <;>
    rw [hfiles] at hwrite
  · cases hwrite
  · obtain ⟨-, rfl⟩ := Prod.mk.inj hwrite
    rw [runIn_read hgiven (FileSystem.open?_of_write? hfiles),
      decode_encode hshape hdistinct hrows hcells hformat]

/-- a table with lists, mappings, several kinds of numbers, and texts that have to be escaped -/
def mixed : Table where
  columns := [
    ⟨"b", [.string "one\n\"two\"", .null]⟩,
    ⟨"a", [.object [("y", .list [.bool true, .list []]), ("x", .number (.integer (-7)))],
      .number (.decimal (.ofScientific false 15 (-1)))]⟩]
  index := [4, 2]
  dates := ["b"]

theorem read_written_mixed :
    let saved : World := { files := { files :=
      [(["mixed.jsonl"], .ofText (encode mixed .jsonLines))] } }
    (write mixed [("name", .string "mixed.jsonl")]).runIn {} {} = (.ok (), saved) ∧
    (read [("name", .string "mixed.jsonl")]).runIn {} saved =
      (.ok { mixed with index := [0, 1], dates := [] }, saved) := by
  have hshape : mixed.Rectangular := by simp [mixed, Table.Rectangular]
  have hdistinct : mixed.DistinctNames := by simp [mixed, Table.DistinctNames, Table.names]
  have hcells : ∀ column ∈ mixed.columns, ∀ cell ∈ column.cells, cell.Readable := by
    have hwhole : Json.readNumber (Number.integer (-7)).text =
        some (.number (.integer (-7)), []) := by decide +kernel
    have hfraction : Json.readNumber (Number.decimal (.ofScientific false 15 (-1))).text =
        some (.number (.decimal (.ofScientific false 15 (-1))), []) := by decide +kernel
    simp [mixed, Value.Readable, Value.ReadableEntries, Value.ReadableItems, Fields.names, hwhole,
      hfraction]
  have hdepth : ∀ column ∈ mixed.columns, ∀ cell ∈ column.cells,
      cell.nesting + Format.jsonLines.around ≤ Json.maxDepth := by
    simp [mixed, Value.nesting, Value.nestingOfItems, Value.nestingOfEntries, Format.around,
      Json.maxDepth]
  have htarget : target [("name", .string "mixed.jsonl")] = .ok ("mixed.jsonl", .jsonLines) := by
    decide +kernel
  have hwritten : ∀ content, ({} : FileSystem).write? "mixed.jsonl" content =
      .ok { files := [(["mixed.jsonl"], content)] } := fun _ => rfl
  have hwrite : (write mixed [("name", .string "mixed.jsonl")]).runIn {} {} = (.ok (), { files :=
      { files := [(["mixed.jsonl"], .ofText (encode mixed .jsonLines))] } }) := by
    rw [runIn_write htarget, hwritten]
  have hread := read_written hshape hdistinct (List.cons_ne_nil _ _) hcells htarget (by decide)
    hwrite htarget
  rw [if_pos hdepth] at hread
  exact ⟨hwrite, hread⟩

/-- an empty list in as many lists as there are steps -/
def nested : Nat → Value
  | 0 => .list []
  | depth + 1 => .list [nested depth]

theorem nesting_nested (depth : Nat) : (nested depth).nesting = depth + 1 := by
  induction depth with
  | zero => rfl
  | succ depth ih => simp [nested, Value.nesting, Value.nestingOfItems, ih]

theorem readable_nested (depth : Nat) : (nested depth).Readable := by
  induction depth with
  | zero => trivial
  | succ depth ih => exact ⟨ih, trivial⟩

/-- a table whose second column holds lists inside each other -/
def deep : Table where
  columns := [⟨"k", [.number (.integer 1)]⟩, ⟨"a", [nested 125]⟩]
  index := [0]

/-- Lists that nest 126 deep are written as a part of a list of rows, and cannot be read. -/
theorem deep_not_read :
    deep.Rectangular ∧ deep.DistinctNames ∧ deep.index ≠ [] ∧
    (∀ column ∈ deep.columns, ∀ cell ∈ column.cells, cell.Readable) ∧
    ∃ after : World, (write deep [("name", .string "deep.json")]).runIn {} {} = (.ok (), after) ∧
      (read [("name", .string "deep.json")]).runIn {} after = (.error jsonFailure, after) := by
  have hshape : deep.Rectangular := by simp [deep, Table.Rectangular]
  have hdistinct : deep.DistinctNames := by simp [deep, Table.DistinctNames, Table.names]
  have hcells : ∀ column ∈ deep.columns, ∀ cell ∈ column.cells, cell.Readable := by
    have hone : Json.readNumber (Number.integer 1).text = some (.number (.integer 1), []) := by
      decide +kernel
    simp [deep, Value.Readable, hone, readable_nested]
  have hdepth : ¬∀ column ∈ deep.columns, ∀ cell ∈ column.cells,
      cell.nesting + 2 ≤ Json.maxDepth := by
    simp [deep, Value.nesting, nesting_nested, Json.maxDepth]
  have htarget : target [("name", .string "deep.json")] = .ok ("deep.json", .json) := by
    decide +kernel
  have hrows : deep.index ≠ [] := List.cons_ne_nil _ _
  have hwritten : ∀ content, ({} : FileSystem).write? "deep.json" content =
      .ok { files := [(["deep.json"], content)] } := fun _ => rfl
  refine ⟨hshape, hdistinct, hrows, hcells, _, by rw [runIn_write htarget, hwritten], ?_⟩
  rw [runIn_read htarget (FileSystem.open?_of_write? (hwritten _)),
    decode_encode_list hshape hdistinct hrows hcells, if_neg hdepth]

end Files

end TableRecipe
