import TableRecipe.Proofs.Table.Changes
import TableRecipe.Proofs.Table.Rows
import TableRecipe.Step.Apply

/-!
# Steps that fill columns

Changing letter case, converting, copying and joining texts have no effects. They fill columns and
leave everything else of a table as it is.

* `Table.Fills` — what such a change does to a table;
* `Table.fills_convertColumns`, … — the changes cell by cell;
* `Step.Targets` — the columns that parameters name for a result;
* `Step.apply_filling` — the steps that fill columns.
-/

namespace TableRecipe

variable {context : Context} {world : World} {table before middle after result : Table}
  {name : String} {cells : List Value} {written more : List String}

namespace Table

/-! ## Columns filled -/

/-- a change that fills columns and leaves everything else as it is; it may mark columns as
dates -/
structure Fills (written : List String) (before after : Table) : Prop where
  index : after.index = before.index
  others : ∀ other, other ∉ written → after.cells? other = before.cells? other
  has : ∀ column ∈ written, (after.cells? column).isSome
  names : ∀ other, (before.cells? other).isSome → (after.cells? other).isSome
  dates : before.dates ⊆ after.dates
  rectangular : before.Rectangular → after.Rectangular

namespace Fills

theorem refl (table : Table) : Fills [] table table where
  index := rfl
  others _ _ := rfl
  has _ h := nomatch h
  names _ := id
  dates := List.Subset.refl _
  rectangular := id

theorem trans (h : Fills written before middle) (h' : Fills more middle after) :
    Fills (written ++ more) before after where
  index := h'.index.trans h.index
  others other hother := by
    simp only [List.mem_append, not_or] at hother
    rw [h'.others other hother.2, h.others other hother.1]
  has column hcolumn := by
    rcases List.mem_append.mp hcolumn with hcolumn | hcolumn
    · exact h'.names column (h.has column hcolumn)
    · exact h'.has column hcolumn
  names other hother := h'.names other (h.names other hother)
  dates := List.Subset.trans h.dates h'.dates
  rectangular hbefore := h'.rectangular (h.rectangular hbefore)

/-- Inserting a column fills it. -/
theorem setColumn (h : before.edit (Edit.setColumn name cells) = .ok after)
    (hcells : cells.length = before.index.length ∨ before.columns ≠ []) :
    Fills [name] before after := by
  refine ⟨index_of_setColumn h hcells, ?_, ?_, ?_, ?_, (Edit.keeps_setColumn name cells).of_edit h⟩
  · intro other hother
    rw [cells?_setColumn h, if_neg (by simpa using hother)]
  · intro column hcolumn
    rw [cells?_setColumn h, if_pos (by simpa using hcolumn)]
    rfl
  · intro other hother
    rw [cells?_setColumn h]
    split
    · rfl
    · exact hother
  · rw [dates_of_setColumn h]
    exact List.Subset.refl _

/-- A date mark changes nothing else. -/
theorem markDate (h : Fills written before after) : Fills written before (after.markDate name) where
  index := index_markDate.trans h.index
  others other hother := cells?_markDate.trans (h.others other hother)
  has column hcolumn := by
    rw [cells?_markDate]
    exact h.has column hcolumn
  names other hother := by
    rw [cells?_markDate]
    exact h.names other hother
  dates := fun other hother => mem_dates_markDate.mpr (.inl (h.dates hother))
  rectangular hbefore := rectangular_markDate (h.rectangular hbefore) name

/-- A change that fills one column after the other fills them all. -/
theorem foldlM {f : Table → String × String → Except Error Table}
    (hf : ∀ before pair after, f before pair = .ok after → Fills [pair.2] before after)
    {pairs : List (String × String)} (h : pairs.foldlM f table = .ok result) :
    Fills (pairs.map (·.2)) table result := by
  induction pairs generalizing table with
  | nil =>
    obtain rfl := Except.ok.inj h
    exact refl table
  | cons pair rest ih =>
    rw [List.foldlM_cons] at h
    obtain ⟨middle, hpair, hrest⟩ := bind_eq_ok.mp h
    exact (hf _ _ _ hpair).trans (ih hrest)

end Fills

theorem fills_convertColumns {convert : Value → Except Error Value}
    {pairs : List (String × String)} (h : table.convertColumns convert pairs = .ok result) :
    Fills (pairs.map (·.2)) table result := by
  refine Fills.foldlM ?_ h
  rintro before ⟨source, target⟩ after hstep
  obtain ⟨cells, hcells, hstep⟩ := bind_eq_ok.mp hstep
  obtain ⟨converted, -, hstep⟩ := bind_eq_ok.mp hstep
  -- the source is a column, so the target does not bring rows with it
  exact .setColumn hstep (.inr (ne_nil_of_cells hcells))

theorem fills_convertTypes {type : CellType} {pairs : List (String × String)}
    (h : table.convertTypes type pairs = .ok result) :
    Fills (pairs.map (·.2)) table result := by
  refine Fills.foldlM ?_ h
  rintro before ⟨source, target⟩ after hstep
  obtain ⟨cells, hcells, hstep⟩ := bind_eq_ok.mp hstep
  obtain ⟨converted, -, hstep⟩ := bind_eq_ok.mp hstep
  obtain ⟨wider, hwider, hstep⟩ := bind_eq_ok.mp hstep
  obtain rfl := pure_eq_ok.mp hstep
  have hfills := Fills.setColumn hwider (.inr (ne_nil_of_cells hcells))
  split
  · exact hfills.markDate
  · exact hfills

theorem fills_joinTexts {input : List String} {output separator : String}
    (h : table.joinTexts input output separator = .ok result) : Fills [output] table result := by
  obtain ⟨sources, -, h⟩ := bind_eq_ok.mp h
  exact .setColumn h (.inl (by simp [Table.length]))

end Table

/-! ## Cells that are null -/

theorem CellType.isNull_integer? {cell converted : Value} (h : integer? cell = some converted) :
    converted.isNull = false := by
  -- numbers and texts of numbers are cut off alike
  have hcut : ∀ text, (do
      let number ← number? text
      if number.isFinite then some (.ofInt number.truncate) else none) = some converted →
      converted.isNull = false := by
    intro text hcut
    obtain ⟨number, -, hcut⟩ := Option.bind_eq_some_iff.mp hcut
    split at hcut
    · obtain rfl := Option.some.inj hcut
      rfl
    · cases hcut
  simp only [integer?] at h
  split at h
  · split at h
    · obtain rfl := Option.some.inj h
      rfl
    · exact hcut _ h
  · obtain rfl := Option.some.inj h
    rfl
  · exact hcut _ h

theorem CellType.isNull_truth? {cell converted : Value} (h : truth? cell = some converted) :
    converted.isNull = false := by
  rw [truth?] at h
  split at h
  all_goals (cases h <;> rfl)

/-- Only a conversion to points in time turns a cell into null. -/
theorem CellType.isNull_convert {type : CellType} {cell converted : Value}
    (htype : type ≠ .moment) (hcell : cell.isNull = false)
    (h : type.convert cell = .ok converted) : converted.isNull = false := by
  have hconvert : type.convert? cell = some converted := by
    rw [convert] at h
    split at h
    · rename_i heq
      exact heq.trans (congrArg some (Except.ok.inj h))
    · cases h
  simp only [convert?, hcell, Bool.false_eq_true, if_false] at hconvert
  cases type with
  | text =>
    obtain rfl := Option.some.inj hconvert
    rfl
  | integer => exact isNull_integer? hconvert
  | decimal =>
    obtain ⟨number, -, hconvert⟩ := Option.bind_eq_some_iff.mp hconvert
    obtain ⟨finite, -, hconvert⟩ := Option.bind_eq_some_iff.mp hconvert
    obtain rfl := Option.some.inj hconvert
    rfl
  | truth => exact isNull_truth? hconvert
  | moment => exact (htype rfl).elim

namespace Table

namespace NoNulls

theorem setColumn (hbefore : before.NoNulls) (hcells : ∀ cell ∈ cells, cell.isNull = false)
    (h : before.edit (Edit.setColumn name cells) = .ok after) : after.NoNulls := by
  obtain ⟨-, rfl⟩ := edit_setColumn_ok.mp h
  intro column hmem
  rcases Edit.mem_putCells hmem with rfl | hmem
  · exact hcells
  · exact hbefore column hmem

theorem of_cells (htable : table.NoNulls) (h : table.cells name = .ok cells) :
    ∀ cell ∈ cells, cell.isNull = false := by
  obtain ⟨column, hmem, -, rfl⟩ := cells?_mem (cells_eq_ok.mp h)
  exact htable column hmem

/-- A conversion that makes no cell null leaves none null. -/
theorem mapM {convert : Value → Except Error Value} {converted : List Value}
    (hconvert : ∀ cell cell', cell.isNull = false → convert cell = .ok cell' →
      cell'.isNull = false)
    (hcells : ∀ cell ∈ cells, cell.isNull = false) (h : cells.mapM convert = .ok converted) :
    ∀ cell ∈ converted, cell.isNull = false := by
  intro cell' hmem
  obtain ⟨cell, hcell, hconverted⟩ := mem_of_mapM h hmem
  exact hconvert cell cell' (hcells cell hcell) hconverted

theorem convertColumns (htable : table.NoNulls) {convert : Value → Except Error Value}
    (hconvert : ∀ cell cell', cell.isNull = false → convert cell = .ok cell' →
      cell'.isNull = false)
    {pairs : List (String × String)} (h : table.convertColumns convert pairs = .ok result) :
    result.NoNulls := by
  refine foldlM_ok NoNulls h htable ?_
  rintro ⟨source, target⟩ - before after hstep hbefore
  obtain ⟨cells, hcells, hstep⟩ := bind_eq_ok.mp hstep
  obtain ⟨converted, hconverted, hstep⟩ := bind_eq_ok.mp hstep
  exact hbefore.setColumn (mapM hconvert (hbefore.of_cells hcells) hconverted) hstep

theorem convertTypes (htable : table.NoNulls) {type : CellType} (htype : type ≠ .moment)
    {pairs : List (String × String)} (h : table.convertTypes type pairs = .ok result) :
    result.NoNulls := by
  refine foldlM_ok NoNulls h htable ?_
  rintro ⟨source, target⟩ - before after hstep hbefore
  obtain ⟨cells, hcells, hstep⟩ := bind_eq_ok.mp hstep
  obtain ⟨converted, hconverted, hstep⟩ := bind_eq_ok.mp hstep
  obtain ⟨wider, hwider, hstep⟩ := bind_eq_ok.mp hstep
  obtain rfl := pure_eq_ok.mp hstep
  rw [if_neg htype]
  have hnulls := hbefore.of_cells hcells
  exact hbefore.setColumn (mapM (fun _ _ => CellType.isNull_convert htype) hnulls hconverted) hwider

theorem joinTexts (htable : table.NoNulls) {input : List String} {output separator : String}
    (h : table.joinTexts input output separator = .ok result) : result.NoNulls := by
  obtain ⟨sources, -, h⟩ := bind_eq_ok.mp h
  refine htable.setColumn ?_ h
  intro cell hmem
  obtain ⟨row, -, rfl⟩ := List.mem_map.mp hmem
  rfl

end NoNulls

end Table

/-! ## The steps -/

namespace Step

/-- the kinds of steps that fill columns from cells of the same row -/
def filling : List StepKind := [.convertCase, .convertType, .copy, .mergeConcatenate]

/-- the columns that parameters name for a result: those in `output` if there are any, else those
that `input` selects -/
inductive Targets (names : List String) (params : Fields) : List String → Prop where
  | output {columns : List String} (houtput : Params.selectors params "output" = .ok columns)
    (hsome : columns ≠ []) : Targets names params columns
  | input {selectors columns : List String}
    (houtput : Params.selectors params "output" = .ok [])
    (hinput : Params.selectors params "input" = .ok selectors) (hsome : selectors ≠ [])
    (hexpand : Selector.expand names selectors = .ok columns) : Targets names params columns

/-- The pairs of a step with some input are pairs with its targets. -/
theorem targets_pairs {names selectors output : List String} {params : Fields} {step : String}
    {pairs : List (String × String)} (hinput : Params.selectors params "input" = .ok selectors)
    (hsome : selectors ≠ []) (houtput : Params.selectors params "output" = .ok output)
    (h : Params.pairs names selectors output step = .ok pairs) :
    Targets names params (pairs.map (·.2)) := by
  obtain ⟨columns, hexpand, h⟩ := bind_eq_ok.mp h
  cases output with
  | nil =>
    obtain rfl := pure_eq_ok.mp h
    refine .input houtput hinput hsome ?_
    simpa [List.map_map, Function.comp_def] using hexpand
  | cons first rest =>
    by_cases hlength : columns.length = (first :: rest).length
    · simp only [List.isEmpty_cons, Bool.false_eq_true, if_false, hlength, ne_eq, not_true_eq_false]
        at h
      obtain rfl := pure_eq_ok.mp h
      have hmap : (columns.zip (first :: rest)).map (·.2) = first :: rest :=
        List.map_snd_zip (Nat.le_of_eq hlength.symm)
      rw [hmap]
      exact .output houtput nofun
    · simp only [List.isEmpty_cons, Bool.false_eq_true, if_false, ne_eq, hlength, not_false_eq_true,
        if_true] at h
      exact (throw_ne_ok h).elim

theorem inputOf_ok {params : Fields} {step : String} {input : List String}
    (h : inputOf params step = .ok input) :
    Params.selectors params "input" = .ok input ∧ input ≠ [] := by
  obtain ⟨found, hfound, h⟩ := bind_eq_ok.mp h
  cases found with
  | nil => exact (throw_ne_ok h).elim
  | cons first rest =>
    obtain rfl := pure_eq_ok.mp h
    exact ⟨hfound, nofun⟩

theorem inputAndOutput_ok {params : Fields} {step : String} {input output : List String}
    (h : inputAndOutput params step = .ok (input, output)) :
    Params.selectors params "input" = .ok input ∧ input ≠ [] ∧
      Params.selectors params "output" = .ok output := by
  obtain ⟨input', hinput, h⟩ := bind_eq_ok.mp h
  obtain ⟨output', houtput, h⟩ := bind_eq_ok.mp h
  cases input' with
  | nil => exact (throw_ne_ok h).elim
  | cons first rest =>
    cases output' with
    | nil => exact (throw_ne_ok h).elim
    | cons first' rest' =>
      obtain ⟨rfl, rfl⟩ := Prod.mk.inj (pure_eq_ok.mp h)
      exact ⟨hinput, nofun, houtput⟩

/-- What the parameters of a filling step say. -/
theorem build_filling {kind : StepKind} (hkind : kind ∈ filling) {params : Fields} {step : Step}
    (h : build kind (.object params) = .ok step) :
    ∃ input, Params.selectors params "input" = .ok input ∧ input ≠ [] ∧
      ((∃ output, Params.selectors params "output" = .ok output ∧
        ((∃ spelling, step = convertCase input output spelling) ∨
          (∃ type, step = convertType input output type) ∨ step = copy input output)) ∨
      ∃ output separator, Params.selectors params "output" = .ok [output] ∧
        step = mergeConcatenate input output separator) := by
  obtain ⟨_, hparams, h⟩ := bind_eq_ok.mp h
  obtain rfl := Except.ok.inj hparams
  simp only [filling, List.mem_cons, List.not_mem_nil, or_false] at hkind
  -- every kind reads its columns first, then what it does with them
  rcases hkind with rfl | rfl | rfl | rfl
  · obtain ⟨input, hinput, h⟩ := bind_eq_ok.mp h
    obtain ⟨hselectors, hsome⟩ := inputOf_ok hinput
    obtain ⟨output, houtput, hstep⟩ : ∃ output, Params.selectors params "output" = .ok output ∧
        ∃ spelling, step = convertCase input output spelling := by
      refine (?_ : Returns (fun step => ∃ output, Params.selectors params "output" = .ok output ∧
        ∃ spelling, step = convertCase input output spelling) _) step h
      exact .ite (.bind fun _ _ => .bind fun spelling _ => .bind fun output houtput =>
          .pure ⟨output, houtput, spelling, rfl⟩)
        (.bind fun spelling _ => .bind fun output houtput =>
          .pure ⟨output, houtput, spelling, rfl⟩)
    exact ⟨input, hselectors, hsome, .inl ⟨output, houtput, .inl hstep⟩⟩
  · obtain ⟨input, hinput, h⟩ := bind_eq_ok.mp h
    obtain ⟨hselectors, hsome⟩ := inputOf_ok hinput
    obtain ⟨word, -, h⟩ := bind_eq_ok.mp h
    obtain ⟨type, -, h⟩ := bind_eq_ok.mp h
    obtain ⟨output, houtput, h⟩ := bind_eq_ok.mp h
    have hstep := (pure_eq_ok.mp h).symm
    exact ⟨input, hselectors, hsome, .inl ⟨output, houtput, .inr (.inl ⟨type, hstep⟩)⟩⟩
  · obtain ⟨⟨input, output⟩, hcolumns, h⟩ := bind_eq_ok.mp h
    obtain ⟨hselectors, hsome, houtput⟩ := inputAndOutput_ok hcolumns
    have hstep := (pure_eq_ok.mp h).symm
    exact ⟨input, hselectors, hsome, .inl ⟨output, houtput, .inr (.inr hstep)⟩⟩
  · obtain ⟨input, hinput, h⟩ := bind_eq_ok.mp h
    obtain ⟨hselectors, hsome⟩ := inputOf_ok hinput
    obtain ⟨columns, houtput, h⟩ := bind_eq_ok.mp h
    rcases columns with _ | ⟨output, _ | ⟨other, rest⟩⟩
    · exact (throw_ne_ok h).elim
    · obtain ⟨separator, hstep⟩ : ∃ separator, step = mergeConcatenate input output separator := by
        refine (?_ : Returns (fun step => ∃ separator,
          step = mergeConcatenate input output separator) _) step h
        exact .ite (.bind fun separator _ => .pure ⟨separator, rfl⟩)
          (.bind fun separator _ => .pure ⟨separator, rfl⟩)
      exact ⟨input, hselectors, hsome, .inr ⟨output, separator, houtput, hstep⟩⟩
    · exact (throw_ne_ok h).elim

/-- **Steps that fill columns.** They have no effects, and if they succeed they fill the columns
that their parameters name. Only a conversion to points in time leaves a null where there was
none. -/
theorem apply_filling (table : Table) {kind : StepKind} (hkind : kind ∈ filling) {params : Fields}
    {step : Step} (hbuild : build kind (.object params) = .ok step) :
    ∃ x, (∀ context world, (step.apply table).runIn context world = (x, world)) ∧
      ∀ result, x = .ok result →
        (∃ written, Targets table.names params written ∧ table.Fills written result) ∧
        (table.NoNulls → result.NoNulls ∨
          ∃ input output, step = convertType input output .moment) := by
  obtain ⟨input, hinput, hsome, ⟨output, houtput, hstep⟩ | ⟨output, separator, houtput, rfl⟩⟩ :=
    build_filling hkind hbuild
  · rcases hstep with ⟨spelling, rfl⟩ | ⟨type, rfl⟩ | rfl
    · refine ⟨_, fun _ _ => Engine.runIn_ofExcept _, fun result h => ?_⟩
      obtain ⟨pairs, hpairs, h⟩ := bind_eq_ok.mp h
      refine ⟨⟨_, targets_pairs hinput hsome houtput hpairs, Table.fills_convertColumns h⟩,
        fun htable => .inl (htable.convertColumns ?_ h)⟩
      intro cell cell' hcell hcell'
      obtain rfl := Except.ok.inj hcell'
      cases cell <;> first | rfl | exact hcell
    · refine ⟨_, fun _ _ => Engine.runIn_ofExcept _, fun result h => ?_⟩
      obtain ⟨pairs, hpairs, h⟩ := bind_eq_ok.mp h
      refine ⟨⟨_, targets_pairs hinput hsome houtput hpairs, Table.fills_convertTypes h⟩,
        fun htable => ?_⟩
      -- only a conversion to points in time may leave a null
      by_cases htype : type = .moment
      · exact .inr ⟨input, output, by rw [htype]⟩
      · exact .inl (htable.convertTypes htype h)
    · refine ⟨_, fun _ _ => Engine.runIn_ofExcept _, fun result h => ?_⟩
      obtain ⟨pairs, hpairs, h⟩ := bind_eq_ok.mp h
      refine ⟨⟨_, targets_pairs hinput hsome houtput hpairs, Table.fills_convertColumns h⟩,
        fun htable => .inl (htable.convertColumns ?_ h)⟩
      intro cell cell' hcell hcell'
      exact Except.ok.inj hcell' ▸ hcell
  · refine ⟨_, fun _ _ => Engine.runIn_ofExcept _, fun result h => ?_⟩
    obtain ⟨names, -, h⟩ := bind_eq_ok.mp h
    exact ⟨⟨_, .output houtput nofun, Table.fills_joinTexts h⟩,
      fun htable => .inl (htable.joinTexts h)⟩

end Step

end TableRecipe
