import TableRecipe.Proofs.Fields
import TableRecipe.Proofs.Table.Writes
import TableRecipe.CustomFunction.Invoke

/-!
# Functions called row by row

A function that does not take tables is called for every row of a table, in their order. Should a
call fail, the function is called once more for that row, with the parameters of the step alone;
should this fail, too, the step fails with the first of the two failures. What the calls return
fills the output columns.

* `CustomFunction.fromStep`, `CustomFunction.fromRow` — what is passed under a name;
* `CustomFunction.Served`, `CustomFunction.Cells` — the calls for a row, and the cells that come of
  them;
* `CustomFunction.RowByRow` — the calls for all rows, and what they come to;
* `Table.FilledByRows` — columns filled with the cells of every row;
* `CustomFunction.invoke_rowByRow` — a step that calls a function row by row.
-/

namespace TableRecipe

variable {context : Context} {world : World} {function : CustomFunction} {table : Table}
  {params arguments passed : Fields} {columns output : List String} {name : String} {row : Nat}

namespace World

variable {calls more : List Fields}

/-- the world after calls of a function without a table -/
def calling (world : World) (function : CustomFunction) (calls : List Fields) : World :=
  { world with trace := world.trace ++ calls.map (Effect.call function.name · none) }

@[simp] theorem calling_nil : world.calling function [] = world := by simp [calling]

@[simp] theorem calling_calling :
    (world.calling function calls).calling function more =
      world.calling function (calls ++ more) := by
  simp [calling]

end World

/-! ## Columns filled row by row -/

namespace Table

/-- a table after the output columns were filled with the cells of every row: each of them holds
what the rows have at its place -/
structure FilledByRows (output : List String) (rows : List (List Value)) (before after : Table) :
    Prop extends Table.Writes output before after where
  sameDates : after.dates = before.dates
  filled : ∀ (place : Nat) (column : String), output[place]? = some column →
    ∃ cells, after.cells? column = some cells ∧ rows.map (·[place]?) = cells.map some

/-- Distinct columns with a cell for every row can be inserted one after the other. -/
theorem foldlM_setColumn {α : Type} {items : List α} {target : α → String}
    {cells : α → List Value} (hlength : ∀ item ∈ items, (cells item).length = table.length)
    (hdistinct : (items.map target).Nodup) :
    ∃ result, items.foldlM (fun table item =>
        table.edit (Edit.setColumn (target item) (cells item))) table = .ok result ∧
      table.Writes (items.map target) result ∧ result.dates = table.dates ∧
      ∀ item ∈ items, result.cells? (target item) = some (cells item) := by
  induction items generalizing table with
  | nil => exact ⟨table, rfl, .refl table, rfl, nofun⟩
  | cons item rest ih =>
    rw [List.forall_mem_cons] at hlength
    obtain ⟨hitem, hrest⟩ := hlength
    rw [List.map_cons, List.nodup_cons] at hdistinct
    obtain ⟨hnew, hdistinct⟩ := hdistinct
    have hindex : Edit.indexFor table (cells item) = table.index := indexFor_of_length hitem
    obtain ⟨middle, hmiddle⟩ : ∃ middle,
        table.edit (Edit.setColumn (target item) (cells item)) = .ok middle :=
      ⟨_, edit_setColumn_ok.mpr ⟨by rw [hindex]; exact hitem, rfl⟩⟩
    have hwrites := Writes.setColumn hmiddle (.inl hitem)
    have hsame : middle.length = table.length := congrArg List.length hwrites.index
    have hlater : ∀ other ∈ rest, (cells other).length = middle.length := by
      intro other hother
      rw [hsame, hrest other hother]
    obtain ⟨result, hresult, hmore, hdates, hcells⟩ := ih hlater hdistinct
    refine ⟨result, ?_, hwrites.trans hmore, hdates.trans (dates_of_setColumn hmiddle), ?_⟩
    · rw [List.foldlM_cons]
      exact bind_eq_ok.mpr ⟨middle, hmiddle, hresult⟩
    · rw [List.forall_mem_cons]
      refine ⟨?_, hcells⟩
      rw [hmore.others _ hnew, cells?_setColumn hmiddle, if_pos rfl]

end Table

namespace CustomFunction

/-- Distinct columns can be filled from rows that have a cell for each of them. -/
theorem putRows_ok {rows : List (List Value)} (hlength : rows.length = table.length)
    (hcells : ∀ cells ∈ rows, cells.length = output.length) (hdistinct : output.Nodup) :
    ∃ result, putRows table output rows = .ok result ∧ table.FilledByRows output rows result := by
  have hnames : output.zipIdx.map (·.1) = output := List.zipIdx_map_fst 0 output
  obtain ⟨result, hresult, hwrites, hdates, hfilled⟩ :=
    @Table.foldlM_setColumn table _ output.zipIdx (·.1)
      (fun pair => rows.map fun cells => (cells[pair.2]?).getD .null)
      (fun _ _ => by rw [List.length_map, hlength]) (by rwa [hnames])
  rw [hnames] at hwrites
  refine ⟨result, hresult, hwrites, hdates, ?_⟩
  intro place column hplace
  refine ⟨_, hfilled (column, place) (List.mem_zipIdx_iff_getElem?.mpr hplace), ?_⟩
  rw [List.map_map]
  apply List.map_congr_left
  intro cells hmem
  have hlt : place < cells.length :=
    hcells cells hmem ▸ (List.getElem?_eq_some_iff.mp hplace).1
  simp [hlt]

/-! ## What is passed -/

/-- what a step passes under a name: its parameter, if the function takes one and the step does not
keep it -/
def fromStep (function : CustomFunction) (params : Fields) (name : String) : Option Value :=
  if function.signature.admits name ∧ name ∉ reserved then Fields.find? name params else none

/-- what a row passes under a name that the function takes: the cell of the last column that goes
under it -/
def fromRow (function : CustomFunction) (table : Table) (columns : List String) (row : Nat)
    (name : String) : Option Value :=
  if function.signature.admits name then
    (columns.reverse.find? (function.keyword · = name)).map (table.cell · row)
  else none

theorem find?_admitted : Fields.find? name (function.admitted params) =
    if function.signature.admits name then Fields.find? name params else none :=
  Fields.find?_filter

theorem find?_passedOn : Fields.find? name (function.passedOn params) =
    function.fromStep params name := by
  rw [passedOn, find?_admitted, Fields.find?_without, fromStep]
  by_cases hadmits : function.signature.admits name
  · by_cases hreserved : name ∈ reserved <;> simp [hadmits, hreserved]
  · simp [hadmits]

theorem nodup_names_passedOn (h : params.names.Nodup) :
    (function.passedOn params).names.Nodup :=
  h.sublist ((List.filter_sublist.trans List.filter_sublist).map _)

theorem find?_cells : Fields.find? name (Fields.ofPairs (columns.filterMap fun column =>
      let name := function.keyword column
      if function.signature.admits name then some (name, table.cell column row) else none)) =
    function.fromRow table columns row name := by
  induction columns using List.reverseRecOn with
  | nil => simp [Fields.ofPairs, Fields.extend, Fields.find?, fromRow]
  | append_singleton before column ih =>
    rw [List.filterMap_append, Fields.ofPairs_append, Fields.find?_extend, ih]
    rw [fromRow, fromRow]
    -- the last column is inserted last, in place of what an earlier one put under the same name
    by_cases hkey : function.keyword column = name
    · by_cases hadmits : function.signature.admits name
      · simp [hkey, hadmits, Fields.ofPairs, Fields.extend, Fields.insert, Fields.find?]
      · simp [hkey, hadmits, Fields.ofPairs, Fields.extend, Fields.find?]
    · by_cases hother : function.signature.admits (function.keyword column)
      · simp [hkey, hother, Fields.ofPairs, Fields.extend, Fields.insert, Fields.find?]
      · simp [hkey, hother, Fields.ofPairs, Fields.extend, Fields.find?]

/-- A call for a row passes the cells of the row, and over them the parameters of the step. -/
theorem find?_rowArguments (h : params.names.Nodup) :
    Fields.find? name
        (function.rowArguments table columns (function.passedOn params) row) =
      (function.fromStep params name).or (function.fromRow table columns row name) := by
  rw [rowArguments, Fields.find?_extend, Fields.ofPairs_of_nodup (nodup_names_passedOn h),
    find?_passedOn]
  exact congrArg _ find?_cells

/-! ## The calls -/

/-- how a row is served: the calls for it, each with what it passes, and what comes of them -/
inductive Served (function : CustomFunction) (arguments passed : Fields) :
    List Fields → Except Error Output → Prop where
  /-- by the first call -/
  | first {output : Output} (h : function.call none arguments = .ok output) :
    Served function arguments passed [arguments] (.ok output)
  /-- by a second call, with the parameters of the step alone, after the first one failed -/
  | second {error : Error} {output : Output} (hfirst : function.call none arguments = .error error)
    (hgoes : error.cause.stopsRun = false) (hsecond : function.call none passed = .ok output) :
    Served function arguments passed [arguments, passed] (.ok output)
  /-- not at all if both calls fail; the first failure counts -/
  | failed {error other : Error} (hfirst : function.call none arguments = .error error)
    (hgoes : error.cause.stopsRun = false) (hsecond : function.call none passed = .error other)
    (hother : other.cause.stopsRun = false) :
    Served function arguments passed [arguments, passed] (.error error)
  /-- not at all if the first call stops the run -/
  | stopped {error : Error} (hfirst : function.call none arguments = .error error)
    (hstops : error.cause.stopsRun = true) :
    Served function arguments passed [arguments] (.error error)
  /-- not at all if the second call stops the run -/
  | stoppedAgain {error other : Error} (hfirst : function.call none arguments = .error error)
    (hgoes : error.cause.stopsRun = false) (hsecond : function.call none passed = .error other)
    (hstops : other.cause.stopsRun = true) :
    Served function arguments passed [arguments, passed] (.error other)

/-- the cells for the output columns that come of what a call returns -/
inductive Cells (function : CustomFunction) (output : List String) :
    Output → Except Error (List Value) → Prop where
  /-- a single column gets the value itself -/
  | single {value : Value} (h : output.length = 1) :
    Cells function output (.value value) (.ok [value])
  /-- several columns get the items of a list that has one for each of them -/
  | several {items : List Value} (h : output.length ≠ 1) (hlength : items.length = output.length) :
    Cells function output (.value (.list items)) (.ok items)
  /-- any other value is refused -/
  | refused {value : Value} (h : output.length ≠ 1)
    (hvalue : ∀ items, value = .list items → items.length ≠ output.length) :
    Cells function output (.value value) (.error (.contractViolation function.name
      (s!"expected a list of {output.length} values for outputs {Quoted.list output}, "
        ++ s!"got {value.json}")))
  /-- a table is refused -/
  | table {table : Table} : Cells function output (.table table) (.error
      (.contractViolation function.name "a row-wise function must return a value, not a dataset"))

/-- how the rows are served one after the other: what the first call for each of them passes, all
calls in order, and what comes of them -/
inductive RowByRow (function : CustomFunction) (output : List String) (passed : Fields) :
    List Fields → List Fields → Except Error (List (List Value)) → Prop where
  /-- no rows -/
  | none : RowByRow function output passed [] [] (.ok [])
  /-- a row that gets its cells, and then the others -/
  | next {arguments : Fields} {rest calls later : List Fields} {returned : Output}
    {cells : List Value} {outcome : Except Error (List (List Value))}
    (hserved : Served function arguments passed calls (.ok returned))
    (hcells : Cells function output returned (.ok cells))
    (hrest : RowByRow function output passed rest later outcome) :
    RowByRow function output passed (arguments :: rest) (calls ++ later)
      (outcome.map (cells :: ·))
  /-- a row whose call returns what it must not -/
  | refused {arguments : Fields} {rest calls : List Fields} {returned : Output} {error : Error}
    (hserved : Served function arguments passed calls (.ok returned))
    (hcells : Cells function output returned (.error error)) :
    RowByRow function output passed (arguments :: rest) calls (.error error)
  /-- a row that is not served -/
  | failed {arguments : Fields} {rest calls : List Fields} {error : Error}
    (hserved : Served function arguments passed calls (.error error)) :
    RowByRow function output passed (arguments :: rest) calls (.error error)

theorem runIn_call : (Engine.call function none arguments).runIn context world =
    (function.call none arguments, world.calling function [arguments]) := by
  change (Engine.record (.call function.name arguments none) >>= fun _ =>
    Engine.ofExcept (function.call none arguments)).runIn context world = _
  rw [Engine.runIn_bind]
  exact Engine.runIn_ofExcept _

theorem attempt_call_ok {returned : Output} (h : function.call none arguments = .ok returned) :
    (Engine.call function none arguments).attempt.runIn context world =
      (.ok (.ok returned), world.calling function [arguments]) := by
  rw [Engine.runIn_attempt, runIn_call, h]

theorem attempt_call_error {error : Error} (h : function.call none arguments = .error error) :
    (Engine.call function none arguments).attempt.runIn context world =
      if error.cause.stopsRun then (.error error, world.calling function [arguments])
      else (.ok (.error error), world.calling function [arguments]) := by
  rw [Engine.runIn_attempt, runIn_call, h]

/-- Every row is served in one of these ways. -/
theorem exists_served : ∃ calls outcome, Served function arguments passed calls outcome ∧
    ∀ world, (function.callForRow arguments passed).runIn context world =
      (outcome, world.calling function calls) := by
  simp only [callForRow, Engine.runIn_bind]
  rcases hfirst : function.call none arguments with error | returned
  · by_cases hstops : error.cause.stopsRun = true
    · refine ⟨_, _, .stopped hfirst hstops, ?_⟩
      simp [attempt_call_error hfirst, hstops]
    · rw [Bool.not_eq_true] at hstops
      rcases hsecond : function.call none passed with other | returned
      · by_cases hagain : other.cause.stopsRun = true
        · refine ⟨_, _, .stoppedAgain hfirst hstops hsecond hagain, ?_⟩
          simp [attempt_call_error hfirst, hstops, Engine.runIn_bind, attempt_call_error hsecond,
            hagain]
        · rw [Bool.not_eq_true] at hagain
          refine ⟨_, _, .failed hfirst hstops hsecond hagain, ?_⟩
          simp [attempt_call_error hfirst, hstops, Engine.runIn_bind, attempt_call_error hsecond,
            hagain]
      · refine ⟨_, _, .second hfirst hstops hsecond, ?_⟩
        simp [attempt_call_error hfirst, hstops, Engine.runIn_bind, attempt_call_ok hsecond]
  · refine ⟨_, _, .first hfirst, ?_⟩
    simp [attempt_call_ok hfirst]

theorem cells_cellsOf (returned : Output) :
    Cells function output returned (function.cellsOf output returned) := by
  cases returned with
  | table table => exact .table
  | value value =>
    by_cases hone : output.length = 1
    · rw [cellsOf, if_pos hone]
      exact .single hone
    · rw [cellsOf, if_neg hone]
      cases value with
      | list items =>
        by_cases hlength : items.length = output.length
        · simp only [hlength, if_true]
          exact .several hone hlength
        · simp only [hlength, if_false]
          refine .refused hone ?_
          rintro other ⟨rfl⟩
          exact hlength
      | _ => exact .refused hone nofun

/-- Calling a function for every row is what is said here of the rows. -/
theorem exists_rowByRow {α : Type} {rows : List α} {argumentsOf : α → Fields} :
    ∃ calls outcome, RowByRow function output passed (rows.map argumentsOf) calls outcome ∧
      ∀ world, (rows.mapM fun row => do
          Engine.ofExcept (function.cellsOf output
            (← function.callForRow (argumentsOf row) passed))).runIn context world =
        (outcome, world.calling function calls) := by
  induction rows with
  | nil =>
    refine ⟨[], .ok [], .none, ?_⟩
    intro world
    rw [World.calling_nil]
    rfl
  | cons row rest ih =>
    obtain ⟨later, outcome, hlater, hrest⟩ := ih
    obtain ⟨calls, served, hserved, hcall⟩ :=
      @exists_served context function (argumentsOf row) passed
    simp only [List.mapM_cons, Engine.runIn_bind, hcall]
    rcases served with error | returned
    · exact ⟨calls, .error error, .failed hserved, fun _ => rfl⟩
    · have hcells := @cells_cellsOf function output returned
      simp only [Engine.runIn_ofExcept]
      rcases hcellsOf : function.cellsOf output returned with error | cells <;>
        rw [hcellsOf] at hcells
      · exact ⟨calls, .error error, .refused hserved hcells, fun _ => rfl⟩
      · refine ⟨calls ++ later, outcome.map (cells :: ·), .next hserved hcells hlater, ?_⟩
        intro world
        simp only [hrest, World.calling_calling]
        cases outcome <;> rfl

/-- Every row has as many cells as there are output columns. -/
theorem RowByRow.shape {firsts calls : List Fields} {rows : List (List Value)}
    (h : RowByRow function output passed firsts calls (.ok rows)) :
    rows.length = firsts.length ∧ ∀ cells ∈ rows, cells.length = output.length := by
  generalize houtcome : Except.ok rows = outcome at h
  induction h generalizing rows with
  | none =>
    obtain rfl := Except.ok.inj houtcome
    exact ⟨rfl, nofun⟩
  | @next _ _ _ _ _ cells outcome _ hcells _ ih =>
    cases outcome with
    | error error => cases houtcome
    | ok others =>
      obtain rfl := Except.ok.inj houtcome
      obtain ⟨hlength, hothers⟩ := ih rfl
      have hwidth : cells.length = output.length := by
        cases hcells with
        | single h => exact h.symm
        | several _ hlength => exact hlength
      exact ⟨congrArg (· + 1) hlength, List.forall_mem_cons.mpr ⟨hwidth, hothers⟩⟩
  | refused => cases houtcome
  | failed => cases houtcome

/-! ## The step -/

/-- the columns that a step takes, all of them unless it names some, and those that it fills, which
are the ones it takes unless it names others -/
structure Chosen (table : Table) (params : Fields) (columns output : List String) : Prop where
  taken : match Fields.find? "input" params with
    | some value => ∃ selectors, Selector.ofValue value = .ok selectors ∧
        Selector.expand table.names selectors = .ok columns
    | none => columns = table.names
  filled : match Fields.find? "output" params with
    | some value => Selector.ofValue value = .ok output
    | none => (Fields.find? "input" params).isSome ∧ output = columns
  nonempty : output ≠ []

theorem Chosen.inputAndOutput (h : Chosen table params columns output) :
    ∃ input, function.inputAndOutput table params = .ok (input, output) ∧
      input.getD table.names = columns := by
  obtain ⟨hinput, houtput, hnonempty⟩ := h
  have hsome : output.isEmpty = false := by simpa using hnonempty
  rcases hfirst : Fields.find? "input" params with _ | selected <;>
    rcases hsecond : Fields.find? "output" params with _ | named <;>
    simp only [hfirst, hsecond] at hinput houtput
  · simp at houtput
  · refine ⟨none, ?_, hinput.symm⟩
    simp only [CustomFunction.inputAndOutput, hfirst, hsecond, houtput]
    refine bind_eq_ok.mpr ⟨none, rfl, bind_eq_ok.mpr ⟨output, rfl, ?_⟩⟩
    rw [hsome]
    rfl
  · obtain ⟨selectors, hselectors, hexpand⟩ := hinput
    obtain ⟨-, rfl⟩ := houtput
    refine ⟨some output, ?_, rfl⟩
    simp only [CustomFunction.inputAndOutput, hfirst, hsecond]
    refine bind_eq_ok.mpr ⟨selectors, hselectors, bind_eq_ok.mpr ⟨some output, ?_, ?_⟩⟩
    · rw [hexpand]
      rfl
    · refine bind_eq_ok.mpr ⟨output, rfl, ?_⟩
      rw [hsome]
      rfl
  · obtain ⟨selectors, hselectors, hexpand⟩ := hinput
    refine ⟨some columns, ?_, rfl⟩
    simp only [CustomFunction.inputAndOutput, hfirst, hsecond, houtput]
    refine bind_eq_ok.mpr ⟨selectors, hselectors, bind_eq_ok.mpr ⟨some columns, ?_, ?_⟩⟩
    · rw [hexpand]
      rfl
    · refine bind_eq_ok.mpr ⟨output, rfl, ?_⟩
      rw [hsome]
      rfl

/-- A step that calls a function row by row does what is said here of the rows, and then fills
columns. -/
theorem exists_rowByRow_invoke (hrows : function.signature.acceptsTable = false)
    (hchosen : Chosen table params columns output) :
    ∃ calls outcome,
      RowByRow function output (function.passedOn params)
        ((List.range table.length).map fun row =>
          function.rowArguments table columns (function.passedOn params) row) calls outcome ∧
      (function.invoke table params).runIn context world =
        (outcome >>= putRows table output, world.calling function calls) := by
  obtain ⟨input, hinput, rfl⟩ := @Chosen.inputAndOutput function _ _ _ _ hchosen
  obtain ⟨calls, outcome, hrowByRow, hrun⟩ := @exists_rowByRow context function
    (function.passedOn params) output Nat (List.range table.length)
    fun row => function.rowArguments table (input.getD table.names) (function.passedOn params) row
  refine ⟨calls, outcome, hrowByRow, ?_⟩
  rw [invoke, hrows, if_neg Bool.false_ne_true, invokeOnRows, Engine.runIn_bind,
    Engine.runIn_ofExcept, hinput]
  change (_ >>= _ : Engine Table).runIn context world = _
  rw [Engine.runIn_bind, hrun world]
  cases outcome with
  | error error => rfl
  | ok rows => exact Engine.runIn_ofExcept _

/-- what the first call for every row passes: the parameters that a step passes on, and under the
other names the cells of the row -/
structure PassedFirst (function : CustomFunction) (table : Table) (params : Fields)
    (columns : List String) (firsts : List Fields) : Prop where
  length : firsts.length = table.length
  distinct : ∀ arguments ∈ firsts, arguments.names.Nodup
  found : ∀ (row : Nat) (arguments : Fields), firsts[row]? = some arguments → ∀ name,
    Fields.find? name arguments =
      (function.fromStep params name).or (function.fromRow table columns row name)

theorem passedFirst_rowArguments (hparams : params.names.Nodup) :
    PassedFirst function table params columns ((List.range table.length).map fun row =>
      function.rowArguments table columns (function.passedOn params) row) where
  length := by simp
  distinct arguments hmem := by
    obtain ⟨row, -, rfl⟩ := List.mem_map.mp hmem
    exact Fields.nodup_names_extend Fields.nodup_names_ofPairs
  found row arguments harguments name := by
    rw [List.getElem?_map, Option.map_eq_some_iff] at harguments
    obtain ⟨place, hplace, rfl⟩ := harguments
    obtain ⟨-, rfl⟩ := List.getElem?_eq_some_iff.mp hplace
    rw [List.getElem_range]
    exact find?_rowArguments hparams

/-- **Row by row.** A step that calls a function which does not take tables, with a valid choice of
columns and distinct output columns, serves the rows in their order. The first call for a row passes
the parameters that the step passes on and, under other names, the cells of the row; a second one
passes the parameters alone. If a row cannot be served, or a call returns what it must not, the step
fails there and then. Else the output columns are filled with what was returned for the rows, and
nothing else of the table changes. -/
theorem invoke_rowByRow (hrows : function.signature.acceptsTable = false)
    (hchosen : Chosen table params columns output) (hdistinct : output.Nodup)
    (hparams : params.names.Nodup) :
    ∃ passed firsts calls outcome,
      (passed.names.Nodup ∧ ∀ name, Fields.find? name passed = function.fromStep params name) ∧
      PassedFirst function table params columns firsts ∧
      RowByRow function output passed firsts calls outcome ∧
      match outcome with
      | .error error => (function.invoke table params).runIn context world =
          (.error error, world.calling function calls)
      | .ok rows => ∃ result, (function.invoke table params).runIn context world =
          (.ok result, world.calling function calls) ∧ table.FilledByRows output rows result := by
  obtain ⟨calls, outcome, hrowByRow, hrun⟩ :=
    @exists_rowByRow_invoke context world _ _ _ _ _ hrows hchosen
  refine ⟨_, _, calls, outcome, ⟨nodup_names_passedOn hparams, fun name => find?_passedOn⟩,
    passedFirst_rowArguments hparams, hrowByRow, ?_⟩
  cases outcome with
  | error error => exact hrun
  | ok rows =>
    obtain ⟨hlength, hcells⟩ := hrowByRow.shape
    rw [List.length_map, List.length_range] at hlength
    obtain ⟨result, hresult, hfilled⟩ := putRows_ok hlength hcells hdistinct
    refine ⟨result, ?_, hfilled⟩
    rw [hrun]
    exact congrArg (·, _) hresult

/-- returns a cell and a parameter, and fails if the cell is null -/
def pairing : CustomFunction where
  name := "pair"
  signature := .ofRows ["cell", "mark"]
  call _ arguments :=
    match Fields.find? "cell" arguments with
    | some .null => .error (.of (.internal "nothing to pair"))
    | cell => .ok (.value (.list
        [cell.getD (.string "-"), (Fields.find? "mark" arguments).getD .null]))

/-- three rows, of which one has a null -/
def gapped : Table where
  columns := [⟨"cell", [.string "p", .null, .string "q"]⟩]
  index := [0, 1, 5]

/-- columns to fill, and a parameter to pass -/
def pairingParams : Fields :=
  [("output", .list [.string "first", .string "second"]), ("mark", .string "m")]

/-- Four calls for three rows: the one for the null is made again with the parameter alone. -/
theorem invoke_rowByRow_gapped :
    pairing.signature.acceptsTable = false ∧
      Chosen gapped pairingParams ["cell"] ["first", "second"] ∧
      (["first", "second"] : List String).Nodup ∧ pairingParams.names.Nodup ∧
      ∃ passed firsts calls rows,
        calls.length = 4 ∧
        PassedFirst pairing gapped pairingParams ["cell"] firsts ∧
        RowByRow pairing ["first", "second"] passed firsts calls (.ok rows) ∧
        gapped.FilledByRows ["first", "second"] rows { gapped with
          columns := gapped.columns ++
            [⟨"first", [.string "p", .string "-", .string "q"]⟩,
              ⟨"second", [.string "m", .string "m", .string "m"]⟩] } := by
  have hrows : pairing.signature.acceptsTable = false := rfl
  have hchosen : Chosen gapped pairingParams ["cell"] ["first", "second"] :=
    ⟨rfl, rfl, by decide⟩
  have hdistinct : (["first", "second"] : List String).Nodup := by decide
  have hparams : pairingParams.names.Nodup := by decide
  refine ⟨hrows, hchosen, hdistinct, hparams, ?_⟩
  obtain ⟨passed, firsts, calls, outcome, -, hfirsts, hrowByRow, hrun⟩ :=
    @invoke_rowByRow {} {} _ _ _ _ _ hrows hchosen hdistinct hparams
  have hinvoked : (pairing.invoke gapped pairingParams).runIn {} {} = (.ok { gapped with
        columns := gapped.columns ++
          [⟨"first", [.string "p", .string "-", .string "q"]⟩,
            ⟨"second", [.string "m", .string "m", .string "m"]⟩] },
      { trace := [
        .call "pair" [("cell", .string "p"), ("mark", .string "m")] none,
        .call "pair" [("cell", .null), ("mark", .string "m")] none,
        .call "pair" [("mark", .string "m")] none,
        .call "pair" [("cell", .string "q"), ("mark", .string "m")] none] }) := by
    decide +kernel
  rw [hinvoked] at hrun
  cases outcome with
  | error error => simp at hrun
  | ok rows =>
    obtain ⟨result, hrun, hfilled⟩ := hrun
    obtain ⟨hresult, hworld⟩ := Prod.mk.inj hrun
    obtain rfl := Except.ok.inj hresult
    have htrace := congrArg (fun world => world.trace.length) hworld
    refine ⟨passed, firsts, calls, rows, ?_, hfirsts, hrowByRow, hfilled⟩
    simpa [World.calling] using htrace.symm

end CustomFunction

end TableRecipe
