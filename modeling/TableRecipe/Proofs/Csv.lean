import TableRecipe.Csv

/-!
# Records that were written

Reading comma-separated records undoes writing them: behind the text of some cells the reader stands
outside of quotes, and ending the cell leaves exactly these cells. Only the line of a record whose
one cell is empty needs care, since the reader passes over empty lines, and a mark of the byte order
in front of the first cell, which the reader drops.

* `Csv.Reads` — what the reader makes of the text of cells;
* `Csv.reads_writeCell`, `Csv.reads_writeCells` — the text of one cell, and of several;
* `Csv.foldl_writeRecord` — the line of a record;
* `Csv.read?_write` — records that were written and are read.
-/

namespace TableRecipe.Csv

variable {progress : Progress} {cell text : List Char} {cells : List (List Char)}
  {records : List (List String)} {read : List String} {c : Char}

/-! ## Steps of the reader -/

namespace Progress

theorem endRecord_eq (progress : Progress) : progress.endRecord =
    { records := progress.endCell.cells.reverse :: progress.endCell.records } :=
  rfl

/-- Outside of quotes, a comma ends the cell. -/
theorem step_comma (h : progress.place ≠ .inQuotes) : progress.step ',' = progress.endCell := by
  rw [step]
  cases hplace : progress.place with
  | inQuotes => exact absurd hplace h
  | _ => rfl

/-- Outside of quotes, a line end ends a record that was begun. -/
theorem step_lineEnd (h : progress.place ≠ .inQuotes) (hbegun : progress.place ≠ .beforeRecord) :
    progress.step '\n' = progress.endRecord := by
  rw [step]
  cases hplace : progress.place with
  | inQuotes => exact absurd hplace h
  | beforeRecord => exact absurd hplace hbegun
  | _ => rfl

/-- Before a cell, a quote opens it. -/
theorem step_quote (h : progress.place = .beforeRecord ∨ progress.place = .beforeCell) :
    progress.step '"' = { progress with place := .inQuotes } := by
  rcases h with h | h <;> rw [step, h] <;> rfl

/-- Outside of quotes and not behind any, a character that needs none is one of the cell. -/
theorem step_plain (h : progress.place ≠ .inQuotes) (hbehind : progress.place ≠ .behindQuote)
    (hc : needsQuotes c = false) : progress.step c = progress.take .inCell c := by
  simp only [needsQuotes, Bool.or_eq_false_iff, decide_eq_false_iff_not] at hc
  obtain ⟨⟨hcomma, hquote⟩, hline⟩ := hc
  have houtside : progress.stepOutside c = progress.take .inCell c := by
    simp [stepOutside, hcomma, hline]
  rw [step]
  cases hplace : progress.place with
  | inQuotes => exact absurd hplace h
  | behindQuote => exact absurd hplace hbehind
  | beforeRecord => simp [hquote, hline, houtside]
  | beforeCell => simp [hquote, houtside]
  | inCell => exact houtside

/-- Characters that need no quotes are those of the cell. -/
theorem foldl_step_plain (h : progress.place ≠ .inQuotes) (hbehind : progress.place ≠ .behindQuote)
    (htext : text.any needsQuotes = false) (hne : text ≠ []) : text.foldl step progress =
      { progress with place := .inCell, cell := text.reverse ++ progress.cell } := by
  induction text generalizing progress with
  | nil => exact absurd rfl hne
  | cons c rest ih =>
    obtain ⟨hc, hrest⟩ := Bool.or_eq_false_iff.mp htext
    rw [List.foldl_cons, step_plain h hbehind hc]
    cases rest with
    | nil => rfl
    | cons next rest =>
      rw [ih (by simp [take]) (by simp [take]) hrest (List.cons_ne_nil _ _)]
      simp [take]

/-- Between quotes every character is one of the cell, a quote if it is doubled. -/
theorem foldl_step_doubled (h : progress.place = .inQuotes) :
    (cell.flatMap fun c => if c = '"' then ['"', '"'] else [c]).foldl step progress =
      { progress with cell := cell.reverse ++ progress.cell } := by
  induction cell generalizing progress with
  | nil => rfl
  | cons c rest ih =>
    have hc : (if c = '"' then ['"', '"'] else [c]).foldl step progress =
        progress.take .inQuotes c := by
      by_cases hquote : c = '"'
      · subst hquote
        simp [step, h, take]
      · simp [step, h, hquote]
    rw [List.flatMap_cons, List.foldl_append, hc, ih rfl]
    simp [take, h]

end Progress

/-! ## Cells -/

/-- behind the text of cells, the reader stands outside of quotes, has begun the record unless there
was no text, and ending the cell leaves these cells -/
structure Reads (text : List Char) (read : List String) (before : Progress) : Prop where
  outside : (text.foldl Progress.step before).place ≠ .inQuotes
  begun : text ≠ [] → (text.foldl Progress.step before).place ≠ .beforeRecord
  ends : (text.foldl Progress.step before).endCell =
    { before with place := .beforeCell, cell := [], cells := read.reverse ++ before.cells }

/-- A comma goes between the text of cells and the text of more. -/
theorem Reads.comma {first rest : List Char} {more : List String} (h : Reads first read progress)
    (hmore : Reads rest more { progress with
      place := .beforeCell, cell := [], cells := read.reverse ++ progress.cells }) :
    Reads (first ++ ',' :: rest) (read ++ more) progress := by
  have hfold : (first ++ ',' :: rest).foldl Progress.step progress =
      rest.foldl Progress.step { progress with
        place := .beforeCell, cell := [], cells := read.reverse ++ progress.cells } := by
    rw [List.foldl_append, List.foldl_cons, Progress.step_comma h.outside, h.ends]
  constructor
  · rw [hfold]
    exact hmore.outside
  · intro _
    rw [hfold]
    by_cases hrest : rest = []
    · subst hrest
      simp
    · exact hmore.begun hrest
  · rw [hfold, hmore.ends]
    simp

section

variable (hplace : progress.place = .beforeRecord ∨ progress.place = .beforeCell)
  (hcell : progress.cell = [])
include hplace hcell

/-- A cell between quotes: the reader ends up behind the last one. -/
theorem reads_quoted : Reads
    ('"' :: (cell.flatMap (fun c => if c = '"' then ['"', '"'] else [c]) ++ ['"']))
    [String.ofList cell] progress := by
  have hfold : ('"' :: (cell.flatMap (fun c => if c = '"' then ['"', '"'] else [c]) ++
      ['"'])).foldl Progress.step progress =
      { progress with place := .behindQuote, cell := cell.reverse } := by
    rw [List.foldl_cons, Progress.step_quote hplace, List.foldl_append,
      Progress.foldl_step_doubled rfl]
    simp [Progress.step, hcell]
  constructor
  · simp [hfold]
  · simp [hfold]
  · simp [hfold, Progress.endCell]

/-- A cell without quotes: if it has no text, the reader stays where it is. -/
theorem reads_plain (hplain : cell.any needsQuotes = false) :
    Reads cell [String.ofList cell] progress := by
  have hplaces : progress.place ≠ .inQuotes ∧ progress.place ≠ .behindQuote := by
    rcases hplace with h | h <;> simp [h]
  by_cases hempty : cell = []
  · subst hempty
    exact ⟨hplaces.1, (absurd rfl ·), by simp [Progress.endCell, hcell]⟩
  · have hfold := Progress.foldl_step_plain hplaces.1 hplaces.2 hplain hempty
    constructor
    · simp [hfold]
    · simp [hfold]
    · simp [hfold, Progress.endCell, hcell]

/-- The text of a cell, between quotes or without. -/
theorem reads_writeCell : Reads (writeCell cell) [String.ofList cell] progress := by
  rw [writeCell]
  split
  · exact reads_quoted hplace hcell
  · rename_i hquotes
    exact reads_plain hplace hcell (Bool.eq_false_iff.mpr hquotes)

/-- The text of cells, with commas between them. -/
theorem reads_writeCells (hne : cells ≠ []) :
    Reads (writeCells cells) (cells.map String.ofList) progress := by
  induction cells generalizing progress with
  | nil => exact absurd rfl hne
  | cons first rest ih =>
    cases rest with
    | nil => exact reads_writeCell hplace hcell
    | cons next rest =>
      exact (reads_writeCell hplace hcell).comma (ih (.inr rfl) rfl (List.cons_ne_nil _ _))

end

/-! ## Records -/

/-- The line of a record ends it. Without any text it would be passed over, so the one cell of a
record with an empty text is put between quotes. -/
theorem foldl_writeRecord (hne : cells ≠ []) : (writeRecord cells).foldl Progress.step { records } =
    { records := cells.map String.ofList :: records } := by
  have hreads : Reads (writeCells cells) (cells.map String.ofList) { records } :=
    reads_writeCells (.inl rfl) rfl hne
  rw [writeRecord]
  by_cases hempty : writeCells cells = []
  · have hcells : [""] = cells.map String.ofList := by
      have hends := congrArg Progress.cells hreads.ends
      rw [hempty, List.append_nil] at hends
      exact List.reverse_inj.mp hends
    rw [hempty, ← hcells]
    rfl
  · have hline : (writeCells cells).isEmpty = false := by simpa using hempty
    rw [hline, if_neg Bool.false_ne_true, List.foldl_append, List.foldl_cons, List.foldl_nil,
      Progress.step_lineEnd hreads.outside (hreads.begun hempty), Progress.endRecord_eq, hreads.ends]
    simp

/-- The lines of records are read one after the other. -/
theorem foldl_writeRecords {found : List (List String)} (hne : ∀ cells ∈ records, cells ≠ []) :
    (records.flatMap fun cells => writeRecord (cells.map String.toList)).foldl Progress.step
        { records := found } = { records := records.reverse ++ found } := by
  induction records generalizing found with
  | nil => rfl
  | cons cells rest ih =>
    obtain ⟨hcells, hrest⟩ := List.forall_mem_cons.mp hne
    rw [List.flatMap_cons, List.foldl_append, foldl_writeRecord (by simpa using hcells), ih hrest]
    simp [Function.comp_def]

/-! ## The mark of the byte order -/

/-- whether a text starts with a mark of the byte order -/
def isMarked (text : List Char) : Bool := text.head?.any (·.toNat = 0xfeff)

theorem dropMark_eq (h : isMarked text = false) : dropMark text = text := by
  cases text with
  | nil => rfl
  | cons c rest =>
    have hc : c.toNat ≠ 0xfeff := by simpa [isMarked] using h
    rw [dropMark, if_neg hc]

/-- The text of a cell starts with a quote, or as the cell does. -/
theorem isMarked_writeCell (h : isMarked cell = false) : isMarked (writeCell cell) = false := by
  rw [writeCell]
  split
  · rfl
  · exact h

theorem isMarked_append {rest : List Char} (h : isMarked text = false)
    (hrest : isMarked rest = false) : isMarked (text ++ rest) = false := by
  cases text with
  | nil => exact hrest
  | cons => exact h

theorem isMarked_writeCells (h : cells.head?.any isMarked = false) :
    isMarked (writeCells cells) = false := by
  match cells with
  | [] => rfl
  | [_] => exact isMarked_writeCell h
  | _ :: _ :: _ => exact isMarked_append (isMarked_writeCell h) rfl

theorem isMarked_writeRecord (h : cells.head?.any isMarked = false) :
    isMarked (writeRecord cells ++ text) = false := by
  rw [writeRecord, List.append_assoc]
  refine isMarked_append ?_ rfl
  split
  · rfl
  · exact isMarked_writeCells h

/-- **Records that were written.** Take records that all have the same number of cells, at least
one. Written and read, they come back, whatever characters are in the cells, unless the first cell
starts with a mark of the byte order. -/
theorem read?_write {width : Nat} (hwidth : 0 < width)
    (hcells : ∀ cells ∈ records, cells.length = width)
    (hmark : ∀ cells ∈ records.head?, ∀ cell ∈ cells.head?, isMarked cell.toList = false) :
    read? (write records) = some records := by
  have hne : ∀ cells ∈ records, cells ≠ [] := fun cells hmem =>
    List.ne_nil_of_length_pos (hcells cells hmem ▸ hwidth)
  have hunmarked : isMarked (write records).toList = false := by
    rw [write, String.toList_ofList]
    cases records with
    | nil => rfl
    | cons cells rest =>
      refine isMarked_writeRecord ?_
      cases cells with
      | nil => rfl
      | cons cell => exact hmark _ rfl _ rfl
  have hrecords : Csv.records (write records) = records := by
    rw [Csv.records, dropMark_eq hunmarked, write, String.toList_ofList, foldl_writeRecords hne]
    simp [Progress.finish]
  rw [read?, hrecords]
  cases records with
  | nil => rfl
  | cons first rest =>
    obtain ⟨hfirst, hrest⟩ := List.forall_mem_cons.mp hcells
    have hall : rest.all (·.length = first.length) = true := by
      simpa [hfirst] using hrest
    exact if_pos hall

end TableRecipe.Csv
