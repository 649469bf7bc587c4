import TableRecipe.Proofs.Fields
import TableRecipe.Proofs.Recipe.ConditionalStep
import TableRecipe.Proofs.Step.Filling

/-!
# Conditions and rows filtered beforehand

A step that fills columns comes to the same on the rows that its condition selects as on a table
of these rows alone, as long as it leaves no cell null.

* `Recipe.applySteps_single_ok` — a section of a single step;
* `Recipe.cell?_applySteps_filling` — the cells with a condition, and with rows filtered
  beforehand.
-/

namespace TableRecipe

variable {context : Context} {world world' : World} {table selected changed merged result : Table}
  {name column text : String} {params : Fields} {row position label : Nat}

namespace Recipe

variable {run : Runner} {key : String} {bindings : Fields} {kind : StepKind}

/-! ## A single step -/

/-- A section of a single step applies it and fills the empty cells. -/
theorem applySteps_single_ok {params : Value} {steps : List String}
    (h : (applySteps run (.object [(key, params)]) table bindings).runIn context world =
      (.ok (result, steps), world')) :
    ∃ changed, (applyStep run key params table bindings).runIn context world =
        (.ok changed, world') ∧ result = changed.fillMissing := by
  obtain ⟨_, hentries, h⟩ := Engine.ofExcept_bind_ok h
  obtain rfl := Except.ok.inj hentries
  -- the fold over a single entry
  change ((applyEntry run bindings (table, []) (.object [(key, params)], 1) >>= fun after =>
    pure after).runIn context world) = _ at h
  obtain ⟨after, _, hentry, h⟩ := Engine.bind_ok h
  obtain ⟨hafter, rfl⟩ := Engine.pure_ok h
  obtain ⟨_, hkey, hentry⟩ := Engine.ofExcept_bind_ok hentry
  obtain rfl := Except.ok.inj hkey
  obtain ⟨changed, _, happly, hentry⟩ := Engine.bind_ok hentry
  obtain ⟨hresult, rfl⟩ := Engine.pure_ok hentry
  refine ⟨changed, Engine.locating_ok happly, ?_⟩
  exact (congrArg Prod.fst (hresult.trans hafter)).symm

/-- A step without a condition is applied to the whole table. -/
theorem applyStep_unconditional_ok (hwhere : Fields.find? "where" params = none)
    (h : (applyStep run key (.object params) table bindings).runIn context world =
      (.ok changed, world')) :
    (dispatch run key params table bindings false).runIn context world = (.ok changed, world') := by
  obtain ⟨_, hparams, h⟩ := Engine.ofExcept_bind_ok h
  obtain rfl := Except.ok.inj hparams
  simpa only [hwhere] using h

/-! ## Steps that fill columns -/

theorem runIn_dispatch_step {step : Step} (hrecipe : key ≠ "recipe") (hmatrix : key ≠ "matrix")
    (hreference : CustomFunction.reference? key = none)
    (hfind : StepKind.find context.steps key = .ok kind)
    (hbuild : Step.build kind (.object params) = .ok step) :
    (dispatch run key params table bindings false).runIn context world =
      (step.apply table).runIn context world := by
  have hnamed : Step.named context.steps key (.object params) = .ok step :=
    bind_eq_ok.mpr ⟨kind, hfind, hbuild⟩
  simp only [dispatch, hreference]
  rw [Engine.runIn_read_bind, hnamed]
  rfl

theorem reference?_name (kind : StepKind) : CustomFunction.reference? kind.name = none := by
  cases kind <;> decide

theorem name_not_mem_reshaping (hkind : kind ∈ Step.filling) : kind.name ∉ reshaping := by
  simp only [Step.filling, List.mem_cons, List.not_mem_nil, or_false] at hkind
  rcases hkind with rfl | rfl | rfl | rfl <;> decide

/-- A filling step, found under its own name, has no effects and fills the columns that its
parameters name. -/
theorem dispatch_filling (hkind : kind ∈ Step.filling)
    (hfind : StepKind.find context.steps kind.name = .ok kind)
    (h : (dispatch run kind.name params table bindings false).runIn context world =
      (.ok changed, world')) :
    (∀ world, (dispatch run kind.name params table bindings false).runIn context world =
      (.ok changed, world)) ∧
    (∃ written, Step.Targets table.names params written ∧ table.Fills written changed) ∧
    (table.NoNulls → changed.NoNulls ∨
      ∃ input output,
        Step.build kind (.object params) = .ok (.convertType input output .moment)) := by
  have hkey := name_not_mem_reshaping hkind
  have hrecipe : kind.name ≠ "recipe" := fun e => hkey (e ▸ by decide)
  have hmatrix : kind.name ≠ "matrix" := fun e => hkey (e ▸ by decide)
  rcases dispatch_ok hrecipe hmatrix h with
    ⟨name, _, hreference, -⟩ | ⟨kind', step, -, hfind', hbuild, -⟩
  · rw [reference?_name] at hreference
    cases hreference
  · obtain rfl := Except.ok.inj (hfind'.symm.trans hfind)
    obtain ⟨x, hx, hfills⟩ := Step.apply_filling table hkind hbuild
    have hrun : ∀ world, (dispatch run kind'.name params table bindings false).runIn context world =
        (x, world) := fun world =>
      (runIn_dispatch_step hrecipe hmatrix (reference?_name kind') hfind hbuild).trans
        (hx context world)
    obtain rfl : x = .ok changed := congrArg Prod.fst ((hrun world).symm.trans h)
    obtain ⟨hwritten, hnull⟩ := hfills changed rfl
    refine ⟨hrun, hwritten, fun htable => (hnull htable).imp_right ?_⟩
    rintro ⟨input, output, rfl⟩
    exact ⟨input, output, hbuild⟩

/-- The columns that a filling step writes are put back. -/
theorem targets_subset_mergedColumns {written columns : List String}
    (htargets : Step.Targets table.names params written) (hfills : selected.Fills written changed)
    (houtput : Fields.has params "output" → Params.selectors params "output" ≠ .ok [])
    (hcolumns : mergedColumns table changed params = .ok columns) : written ⊆ columns := by
  rw [mergedColumns] at hcolumns
  cases htargets with
  | output hwritten hsome =>
    rw [Params.selectors] at hwritten
    rcases hfind : Fields.find? "output" params with _ | output <;>
      simp only [hfind] at hwritten hcolumns
    · exact (hsome (Except.ok.inj hwritten).symm).elim
    · obtain rfl := Except.ok.inj (hwritten.symm.trans hcolumns)
      exact List.Subset.refl _
  | input hnone hinput hsome hexpand =>
    have hfind : Fields.find? "output" params = none := by
      rcases hfind : Fields.find? "output" params with _ | output
      · rfl
      · exact (houtput (by simp [Fields.has, hfind]) hnone).elim
    rw [Params.selectors] at hinput
    rcases hfindInput : Fields.find? "input" params with _ | input <;>
      simp only [hfindInput, hfind] at hinput hcolumns
    · exact (hsome (Except.ok.inj hinput).symm).elim
    · obtain ⟨selectors, hselectors, hcolumns⟩ := bind_eq_ok.mp hcolumns
      obtain rfl := Except.ok.inj (hinput.symm.trans hselectors)
      obtain ⟨expanded, hexpanded, hcolumns⟩ := bind_eq_ok.mp hcolumns
      obtain rfl := Except.ok.inj (hexpand.symm.trans hexpanded)
      obtain rfl := pure_eq_ok.mp hcolumns
      intro column hcolumn
      refine List.mem_append_left _ (List.mem_filter.mpr ⟨hcolumn, ?_⟩)
      rw [Table.has_iff_cells?]
      exact hfills.has column hcolumn

/-! ## The cells of a row that was selected -/

/-- The cells of selected rows after columns were filled and put back. A null does not replace
the cell that was there; where there was none, it is filled as it would be without the merge. -/
theorem cell?_fillMissing_mergeSelected {mask : List Bool} {written columns : List String}
    (hdistinct : table.index.Nodup) (hrectangular : table.Rectangular) (hnulls : table.NoNulls)
    (hmask : ∀ position ∈ Table.positionsOf mask, position < table.index.length)
    (hfills : (table.filterMask mask).Fills written changed)
    (hmerged : mergeSelected table changed params = .ok merged)
    (hcolumns : mergedColumns table changed params = .ok columns) (hwritten : written ⊆ columns)
    (hrow : (table.filterMask mask).index[row]? = some label)
    (hposition : table.index[position]? = some label) :
    merged.fillMissing.cell? column position =
      if changed.cell? column row = some .null ∧ table.has column then table.cell? column position
      else changed.fillMissing.cell? column row := by
  obtain ⟨positions, _, hpositions, hcolumns', hfold⟩ := mergeSelected_ok hmerged
  obtain rfl := Except.ok.inj (hcolumns.symm.trans hcolumns')
  have hchanged : changed.index[row]? = some label := hfills.index ▸ hrow
  have hcell := cell?_mergeColumns column hdistinct hpositions hposition rfl hfold
  have hold : ∀ cell, table.cell? column position = some cell → cell.isNull = false := by
    intro cell hthere
    obtain ⟨cells, hcells, hat⟩ := Option.bind_eq_some_iff.mp hthere
    exact hnulls.of_cells (Table.cells_eq_ok.mpr hcells) cell (List.mem_of_getElem? hat)
  rw [Table.cell?_fillMissing, Table.cell?_fillMissing, hcell]
  by_cases hmem : column ∈ columns
  · -- the column is put back
    have hdate : merged.isDate column = changed.isDate column := by
      have hmarks := mem_dates_mergeColumns column hfold
      have hkept : column ∈ table.dates → column ∈ changed.dates := fun h => hfills.dates h
      rw [Bool.eq_iff_iff]
      simp only [Table.isDate, List.contains_iff_mem, hmarks, hmem, true_and]
      exact ⟨fun h => h.elim hkept id, .inr⟩
    obtain ⟨incoming, hincoming⟩ := cells?_of_mem_mergeColumns hfold hmem
    have hlength := Table.length_of_cells?
      (hfills.rectangular (Table.rectangular_takeRows hrectangular _)) hincoming
    have hlt : row < incoming.length := hlength ▸ (List.getElem?_eq_some_iff.mp hchanged).1
    have hnew : changed.cell? column row = some incoming[row] := by
      rw [Table.cell?, hincoming]
      exact List.getElem?_eq_getElem hlt
    have hback := Table.broughtBack_eq (hfills.index ▸ Table.nodup_index_filterMask hdistinct)
      hchanged hnew
    rw [if_pos hmem, hback, hnew, hdate]
    -- a null does not replace the cell that was there
    rcases hnull : incoming[row].isNull with _ | _
    · have hne : incoming[row] ≠ .null := by
        intro e
        rw [e] at hnull
        cases hnull
      simp [hnull, hne]
    · have heq : incoming[row] = .null := Value.eq_null_of_isNull hnull
      by_cases hhas : table.has column
      · obtain ⟨cell, hthere⟩ := Table.cell?_of_has hrectangular hhas hposition
        simp [heq, hhas, Table.cell, hthere, hold cell hthere]
      · have hnone : table.cell? column position = none := by
          have hcells : table.cells? column = none := by
            simpa [Table.has_iff_cells?] using hhas
          rw [Table.cell?, hcells]
          rfl
        simp [heq, hhas, Table.cell, hnone]
  · -- the column is neither put back nor filled
    have hsame : changed.cell? column row = table.cell? column position := by
      rw [← Table.cell?_filterMask hdistinct hrectangular hmask hrow hposition, Table.cell?,
        hfills.others column fun h => hmem (hwritten h)]
      rfl
    rw [if_neg hmem, hsame]
    rcases hthere : table.cell? column position with _ | cell
    · simp
    · have hnull := hold cell hthere
      have hne : cell ≠ .null := by
        rintro rfl
        cases hnull
      simp [hnull, hne]

/-- **A condition and rows filtered beforehand.** A step that fills columns, and that names some
output or has no parameter for it, leaves the same cells in the rows that its condition selects as
the step without a condition leaves in a table of these rows alone, missing cells being filled in
both. The exception are cells that the step leaves null in a column that was there: the condition
then keeps the old cell. Only a conversion to points in time leaves a null. -/
theorem cell?_applySteps_filling {selected direct : Table} {steps steps' : List String}
    {world₁ world₁' : World} (hkind : kind ∈ Step.filling)
    (hfind : StepKind.find context.steps kind.name = .ok kind) (hdistinct : table.index.Nodup)
    (hrectangular : table.Rectangular) (hnulls : table.NoNulls)
    (hwhere : Fields.find? "where" params = some (.string text))
    (houtput : Fields.has params "output" → Params.selectors params "output" ≠ .ok [])
    (hselected : Condition.filterText table text
      ((Fields.find? "where_params" params).getD .null) = .ok selected)
    (hrun : (applySteps run (.object [(kind.name, .object params)]) table bindings).runIn
      context world = (.ok (result, steps), world'))
    (hdirect : (applySteps run (.object [(kind.name,
      .object (Fields.without params ["where", "where_params"]))]) selected bindings).runIn
      context world₁ = (.ok (direct, steps'), world₁')) :
    ∃ changed, (dispatch run kind.name (Fields.without params ["where", "where_params"]) selected
        bindings false).runIn context world = (.ok changed, world) ∧
      (changed.NoNulls ∨ ∃ input output, Step.build kind
        (.object (Fields.without params ["where", "where_params"])) =
          .ok (.convertType input output .moment)) ∧
      ∀ (row position label : Nat) (column : String), selected.index[row]? = some label →
        table.index[position]? = some label →
        result.cell? column position =
          if changed.cell? column row = some .null ∧ table.has column then
            table.cell? column position
          else direct.cell? column row := by
  have hkey := name_not_mem_reshaping hkind
  obtain ⟨merged, hconditional, rfl⟩ := applySteps_single_ok hrun
  obtain ⟨condition, mask, changed, hread, hmask, hchanged, hmerged⟩ :=
    applyStep_conditional_ok hwhere hkey hconditional
  obtain ⟨condition', mask', hread', hmask', rfl⟩ := Condition.filterText_ok hselected
  obtain rfl := Except.ok.inj (hread.symm.trans hread')
  obtain rfl := Except.ok.inj (hmask.symm.trans hmask')
  obtain ⟨heffects, ⟨written, htargets, hfills⟩, hnull⟩ := dispatch_filling hkind hfind hchanged
  -- the step without a condition comes to the same on the rows filtered beforehand
  obtain ⟨changed', hunconditional, rfl⟩ := applySteps_single_ok hdirect
  have hstep := applyStep_unconditional_ok (by rw [Fields.find?_without]; rfl) hunconditional
  obtain rfl : changed = changed' := by
    have hsame := (heffects world₁).symm.trans hstep
    exact Except.ok.inj (congrArg Prod.fst hsame)
  obtain ⟨_, columns, -, hcolumns, -⟩ := mergeSelected_ok hmerged
  rw [Table.names_filterMask] at htargets
  have hwritten := targets_subset_mergedColumns htargets hfills
    (by simpa [Fields.has, Params.selectors, Fields.find?_without] using houtput) hcolumns
  refine ⟨changed, heffects world, hnull (Table.noNulls_filterMask hnulls), ?_⟩
  intro row position label column hrow hposition
  exact cell?_fillMissing_mergeSelected hdistinct hrectangular hnulls
    (fun _ => Table.lt_of_mem_positionsOf hmask) hfills hmerged hcolumns hwritten hrow hposition

theorem cell?_applySteps_filling_letters :
    letters.index.Nodup ∧ letters.Rectangular ∧ letters.NoNulls ∧
      ∃ result direct,
        (applySteps (Task.perform 1) (.object [("convert.case", .object capitalY)]) letters []).runIn
          {} {} = (.ok (result, ["convert.case"]), {}) ∧
        (applySteps (Task.perform 1) (.object [("convert.case",
            .object [("input", .string "a"), ("case", .string "upper")])])
          { columns := [⟨"a", [.string "y"]⟩], index := [1] } []).runIn
          {} {} = (.ok (direct, ["convert.case"]), {}) ∧
        result.cell? "a" 1 = direct.cell? "a" 0 := by
  have hrun : (applySteps (Task.perform 1) (.object [("convert.case", .object capitalY)])
      letters []).runIn {} {} = (.ok ({ columns := [⟨"a", [.string "x", .string "Y"]⟩]
                                        index := [0, 1] }, ["convert.case"]), {}) := by
    decide +kernel
  have hdirect : (applySteps (Task.perform 1) (.object [("convert.case",
      .object [("input", .string "a"), ("case", .string "upper")])])
      { columns := [⟨"a", [.string "y"]⟩], index := [1] } []).runIn {} {} =
      (.ok ({ columns := [⟨"a", [.string "Y"]⟩], index := [1] }, ["convert.case"]), {}) := by
    decide +kernel
  have hkind : StepKind.convertCase ∈ Step.filling := by decide
  have hrectangular : letters.Rectangular := by decide
  have hnulls : letters.NoNulls := by decide
  obtain ⟨changed, hchanged, hnull, hcells⟩ := cell?_applySteps_filling hkind rfl (by decide)
    hrectangular hnulls rfl (by decide) (by decide +kernel) hrun hdirect
  have hdispatch : (dispatch (Task.perform 1) "convert.case"
      [("input", .string "a"), ("case", .string "upper")]
      { columns := [⟨"a", [.string "y"]⟩], index := [1] } [] false).runIn {} {} =
      (.ok { columns := [⟨"a", [.string "Y"]⟩], index := [1] }, {}) := by
    decide +kernel
  obtain rfl := Except.ok.inj (congrArg Prod.fst (hchanged.symm.trans hdispatch))
  refine ⟨by decide, hrectangular, hnulls, _, _, hrun, hdirect, ?_⟩
  have hcell := hcells 0 1 1 "a" rfl rfl
  rwa [if_neg (by decide)] at hcell

/-- a blank text in a column -/
def blank : Table := { columns := [⟨"d", [.string ""]⟩], index := [0] }

/-- A blank converted to a point in time stays as it is under a condition, and becomes the epoch in
rows filtered beforehand. -/
theorem blank_date_kept_by_condition :
    blank.index.Nodup ∧ blank.NoNulls ∧
      Condition.filterText blank "1 = 1" .null = .ok blank ∧
      ∃ result direct,
        ((applySteps (Task.perform 1) (.object [("convert.data_type", .object
            [("input", .string "d"), ("data_type", .string "datetime"),
              ("where", .string "1 = 1")])]) blank []).runIn {} {}).1 =
          .ok (result, ["convert.data_type"]) ∧
        ((applySteps (Task.perform 1) (.object [("convert.data_type", .object
            [("input", .string "d"), ("data_type", .string "datetime")])]) blank []).runIn {} {}).1 =
          .ok (direct, ["convert.data_type"]) ∧
        result.cell? "d" 0 = some (.string "") ∧
        direct.cell? "d" 0 = some (.string "1970-01-01T00:00:00") := by
  refine ⟨by decide, by decide, by decide +kernel,
    { columns := [⟨"d", [.string ""]⟩], index := [0], dates := ["d"] },
    { columns := [⟨"d", [.string "1970-01-01T00:00:00"]⟩], index := [0], dates := ["d"] }, ?_⟩
  decide +kernel

end Recipe

end TableRecipe
