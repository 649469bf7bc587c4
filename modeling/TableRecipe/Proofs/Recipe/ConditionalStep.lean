import TableRecipe.Proofs.Recipe.Merge
import TableRecipe.Proofs.Step.Labels
import TableRecipe.Proofs.Table.Rows
import TableRecipe.Recipe.Run

/-!
# Steps with a condition

A step with a condition works on the rows that satisfy it, and what it returns is put back by
label. So the rows that were not selected come out as they went in, provided that nothing comes
back under their labels.

* `Recipe.applyStep_conditional_ok` — what a step with a condition goes through;
* `Recipe.mayAddLabels` — whether a step may return labels that it was not given;
* `Recipe.index_subset_of_dispatch` — the labels that a step returns otherwise;
* `Recipe.keepsRow_of_not_selected` — the rows that were not selected.
-/

namespace TableRecipe

variable {context : Context} {world world' : World} {table result changed : Table}

theorem Condition.filterText_ok {text : String} {params : Value}
    (h : filterText table text params = .ok result) :
    ∃ condition mask, read text = .ok condition ∧ condition.mask table params = .ok mask ∧
      result = table.filterMask mask := by
  obtain ⟨condition, hread, h⟩ := bind_eq_ok.mp h
  obtain ⟨mask, hmask, h⟩ := bind_eq_ok.mp h
  exact ⟨condition, mask, hread, hmask, (pure_eq_ok.mp h).symm⟩

namespace Recipe

variable {run : Runner} {key text : String} {params bindings : Fields}

/-! ## The step without its condition -/

/-- whether a step may return labels that it was not given: a function on tables may, and the
built-in step that labels rows anew does -/
def mayAddLabels (context : Context) (key : String) : Bool :=
  match CustomFunction.reference? key with
  | some name =>
    match CustomFunction.find context.functions name with
    | .ok function => function.signature.acceptsTable
    | .error _ => false
  | none =>
    match StepKind.find context.steps key with
    | .ok kind => kind = .reindex
    | .error _ => false

/-- A step that is neither a recipe nor a matrix is a custom function or a built-in step. -/
theorem dispatch_ok (hrecipe : key ≠ "recipe") (hmatrix : key ≠ "matrix")
    (h : (dispatch run key params table bindings false).runIn context world =
      (.ok changed, world')) :
    (∃ name function, CustomFunction.reference? key = some name ∧
      CustomFunction.find context.functions name = .ok function ∧
      (function.invoke table params).runIn context world = (.ok changed, world')) ∨
    (∃ kind step, CustomFunction.reference? key = none ∧
      StepKind.find context.steps key = .ok kind ∧ Step.build kind (.object params) = .ok step ∧
      (step.apply table).runIn context world = (.ok changed, world')) := by
  unfold dispatch at h
  simp only at h
  rcases hreference : CustomFunction.reference? key with _ | name <;> simp only [hreference] at h
  · rw [Engine.runIn_read_bind] at h
    obtain ⟨step, hnamed, happly⟩ := Engine.ofExcept_bind_ok h
    obtain ⟨kind, hfind, hbuild⟩ := bind_eq_ok.mp hnamed
    exact .inr ⟨kind, step, rfl, hfind, hbuild, happly⟩
  · obtain ⟨function, _, hfunction, hinvoke⟩ := Engine.bind_ok h
    rw [Engine.function, Engine.runIn_read_bind] at hfunction
    obtain ⟨hfind, rfl⟩ := Engine.ofExcept_ok hfunction
    exact .inl ⟨name, function, rfl, hfind, hinvoke⟩

/-- A step that adds no labels returns some of those that it was given. -/
theorem index_subset_of_dispatch (hkey : key ∉ reshaping) (hadds : mayAddLabels context key = false)
    (h : (dispatch run key params table bindings false).runIn context world =
      (.ok changed, world')) : changed.index ⊆ table.index := by
  have hrecipe : key ≠ "recipe" := fun e => hkey (e ▸ by decide)
  have hmatrix : key ≠ "matrix" := fun e => hkey (e ▸ by decide)
  rw [mayAddLabels] at hadds
  rcases dispatch_ok hrecipe hmatrix h with
    ⟨name, function, hreference, hfind, hinvoke⟩ | ⟨kind, step, hreference, hfind, hbuild, happly⟩
  · -- a function that is called row by row
    simp only [hreference, hfind] at hadds
    simp only [CustomFunction.invoke, hadds, Bool.false_eq_true, if_false] at hinvoke
    exact CustomFunction.index_of_invokeOnRows hinvoke ▸ List.Subset.refl _
  · simp only [hreference, hfind, decide_eq_false_iff_not] at hadds
    exact Step.index_subset_of_apply (Step.kind_of_build hbuild ▸ hadds) happly

/-! ## The step with its condition -/

/-- A step with a condition selects rows, changes them and puts them back. -/
theorem applyStep_conditional_ok (hwhere : Fields.find? "where" params = some (.string text))
    (hkey : key ∉ reshaping)
    (h : (applyStep run key (.object params) table bindings).runIn context world =
      (.ok result, world')) :
    ∃ condition mask changed, Condition.read text = .ok condition ∧
      condition.mask table ((Fields.find? "where_params" params).getD .null) = .ok mask ∧
      (dispatch run key (Fields.without params ["where", "where_params"]) (table.filterMask mask)
        bindings false).runIn context world = (.ok changed, world') ∧
      mergeSelected table changed (Fields.without params ["where", "where_params"]) =
        .ok result := by
  have hreshaping : reshaping.contains key = false := by simpa using hkey
  obtain ⟨_, hparams, happly⟩ := Engine.ofExcept_bind_ok h
  obtain rfl := Except.ok.inj hparams
  simp only [hwhere, hreshaping, Bool.false_eq_true, if_false] at happly
  obtain ⟨_, htext, hselect⟩ := Engine.ofExcept_bind_ok happly
  obtain rfl := Except.ok.inj htext
  obtain ⟨selected, hselected, hdispatch⟩ := Engine.ofExcept_bind_ok hselect
  obtain ⟨condition, mask, hread, hmask, rfl⟩ := Condition.filterText_ok hselected
  obtain ⟨changed, middle, hchanged, hmerge⟩ := Engine.bind_ok hdispatch
  obtain ⟨hmerged, rfl⟩ := Engine.ofExcept_ok hmerge
  exact ⟨condition, mask, changed, hread, hmask, hchanged, hmerged⟩

/-- **The rows that a condition does not select.** A step with a condition keeps the labels, and
the columns there were in their order. A row comes out as it went in, every new column being null
in it, if and only if what the step returned under its label is what it held. Of a step that adds
no labels nothing comes back for the rows that were not selected; a function on tables may return
any label, and the cells under it replace those of the row, selected or not. -/
theorem keepsRow_of_not_selected (hdistinct : table.index.Nodup)
    (hwhere : Fields.find? "where" params = some (.string text)) (hkey : key ∉ reshaping)
    (h : (applyStep run key (.object params) table bindings).runIn context world =
      (.ok result, world')) :
    result.index = table.index ∧ table.names <+: result.names ∧
      ∃ condition mask changed columns, Condition.read text = .ok condition ∧
        condition.mask table ((Fields.find? "where_params" params).getD .null) = .ok mask ∧
        (dispatch run key (Fields.without params ["where", "where_params"])
          (table.filterMask mask) bindings false).runIn context world = (.ok changed, world') ∧
        mergedColumns table changed (Fields.without params ["where", "where_params"]) =
          .ok columns ∧
        (∀ (row label : Nat), table.index[row]? = some label →
          (KeepsRow row table.columns result.columns ↔
            ∀ column ∈ columns, ∀ cell, changed.broughtBack column label = some cell →
              table.cell column row = cell)) ∧
        (mayAddLabels context key = false → ∀ row < table.length, mask[row]? ≠ some true →
          KeepsRow row table.columns result.columns) := by
  obtain ⟨condition, mask, changed, hread, hmask, hchanged, hmerged⟩ :=
    applyStep_conditional_ok hwhere hkey h
  obtain ⟨hindex, hnames⟩ := shape_mergeSelected hmerged
  obtain ⟨_, columns, -, hcolumns, -⟩ := mergeSelected_ok hmerged
  have hkeeps := fun row label (hrow : table.index[row]? = some label) =>
    keepsRow_mergeSelected_iff hdistinct hmerged hcolumns hrow
  refine ⟨hindex, hnames, condition, mask, changed, columns, hread, hmask, hchanged, hcolumns,
    hkeeps, ?_⟩
  intro hadds row hlt hunselected
  have hrow : table.index[row]? = some table.index[row] := List.getElem?_eq_getElem hlt
  refine (hkeeps row _ hrow).mpr ?_
  intro column _ cell hback
  -- the label of the row was not given to the step, so it did not come back
  have hlabel := Table.not_mem_index_filterMask hdistinct hrow hunselected
  have hnone := Table.broughtBack_of_not_mem column fun hmem =>
    hlabel (index_subset_of_dispatch hkey hadds hchanged hmem)
  rw [hnone] at hback
  cases hback

/-- two rows of a letter each -/
def letters : Table := { columns := [⟨"a", [.string "x", .string "y"]⟩], index := [0, 1] }

/-- a step that writes the letter `y` in capitals -/
def capitalY : Fields :=
  [("input", .string "a"), ("case", .string "upper"), ("where", .string "a = 'y'")]

theorem keepsRow_of_not_selected_letters :
    letters.index.Nodup ∧ "convert.case" ∉ reshaping ∧ mayAddLabels {} "convert.case" = false ∧
      ∃ result, (applyStep (Task.perform 1) "convert.case" (.object capitalY) letters []).runIn
        {} {} = (.ok result, {}) ∧ KeepsRow 0 letters.columns result.columns := by
  have hrun : (applyStep (Task.perform 1) "convert.case" (.object capitalY) letters []).runIn
      {} {} = (.ok { columns := [⟨"a", [.string "x", .string "Y"]⟩], index := [0, 1] }, {}) := by
    decide +kernel
  obtain ⟨-, -, condition, mask, changed, columns, hread, hmask, -, -, -, hkeeps⟩ :=
    keepsRow_of_not_selected (by decide) rfl (by decide) hrun
  have hselects : (do (← Condition.read "a = 'y'").mask letters .null) = .ok mask :=
    bind_eq_ok.mpr ⟨condition, hread, hmask⟩
  have hfirst : (do (← Condition.read "a = 'y'").mask letters .null) = .ok [false, true] := by
    decide +kernel
  obtain rfl := Except.ok.inj (hselects.symm.trans hfirst)
  exact ⟨by decide, by decide, by decide, _, hrun, hkeeps (by decide) 0 (by decide) (by decide)⟩

/-- a function on tables that answers with two rows, whatever rows it is given -/
def twoRows : CustomFunction where
  name := "f"
  signature := .ofTables
  call _ _ := .ok (.table
    { columns := [⟨"a", [.string "p", .string "q"]⟩], index := [0, 1] })

/-- A row that was not selected is replaced when a function on tables returns its label. -/
theorem row_replaced_by_function_on_tables :
    letters.index.Nodup ∧ "custom.f" ∉ reshaping ∧
      (Condition.filterText letters "a = 'y'" .null).map (·.index) = .ok [1] ∧
      ∃ result, ((applyStep (Task.perform 1) "custom.f"
          (.object [("input", .string "a"), ("where", .string "a = 'y'")]) letters []).runIn
        { functions := [twoRows] } {}).1 = .ok result ∧
        result.columns = [⟨"a", [.string "p", .string "q"]⟩] ∧
        ¬ KeepsRow 0 letters.columns result.columns := by
  refine ⟨by decide, by decide, by decide +kernel,
    { columns := [⟨"a", [.string "p", .string "q"]⟩], index := [0, 1] }, ?_, rfl, by decide⟩
  decide +kernel

end Recipe

end TableRecipe
