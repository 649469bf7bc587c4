import TableRecipe.CustomFunction.Invoke
import TableRecipe.Proofs.Step.Filling
import TableRecipe.Proofs.Table.Changes

/-!
# Labels that steps keep

Built-in steps keep labels or drop some; the one exception labels the rows anew. So does a function
that is called row by row, while a function on tables may return any labels.

* `Step.index_subset_of_apply` — the labels after a built-in step;
* `CustomFunction.index_of_invokeOnRows` — the labels after a function was called on every row.
-/

namespace TableRecipe

variable {α : Type} {context : Context} {world world' : World} {table result : Table}

/-! ## Changes -/

namespace Edit

/-- A change that leaves the labels alone, also if it fails. -/
def KeepsLabels (change : Edit α) : Prop := ∀ table, (change.run table).2.index = table.index

theorem keepsLabels_dropColumns (names : List String) : KeepsLabels (dropColumns names) :=
  fun table => (keeps_dropColumns names table (.refl table)).index

theorem keepsLabels_renameColumn (source target : String) :
    KeepsLabels (renameColumn source target) :=
  fun table => (keeps_renameColumn source target table (.refl table)).index

end Edit

namespace Table

/-- A change that leaves the labels alone does so when it succeeds. -/
theorem index_of_edit {change : Edit Unit} (hchange : change.KeepsLabels)
    (h : table.edit change = .ok result) : result.index = table.index := by
  have hkeeps : change.Keeps (·.index = table.index) := fun other hother =>
    (hchange other).trans hother
  exact hkeeps.of_edit h rfl

theorem index_of_renameColumns {names : List (String × String)}
    (h : table.renameColumns names = .ok result) : result.index = table.index := by
  refine foldlM_ok (fun merged => merged.index = table.index) h rfl ?_
  rintro ⟨source, target⟩ - before after hstep hbefore
  exact (index_of_edit (Edit.keepsLabels_renameColumn source target) hstep).trans hbefore

theorem index_of_select {names : List String} (h : table.select names = .ok result) :
    result.index = table.index :=
  (drawsFrom_select h).index

theorem index_takeRows_subset (positions : List Nat) :
    (table.takeRows positions).index ⊆ table.index := by
  intro label h
  obtain ⟨position, -, hlabel⟩ := List.mem_filterMap.mp h
  exact List.mem_of_getElem? hlabel

theorem index_of_putAnswers {output : List String} {answers : List Value} {step : String}
    (h : table.putAnswers output answers step = .ok result) : result.index = table.index := by
  simp only [putAnswers] at h
  by_cases hlength : answers.length = table.length
  · simp only [hlength, ne_eq, not_true_eq_false, if_false] at h
    split at h
    · exact index_of_setColumn h (.inl hlength)
    · -- one column for every output, each with an answer for every row
      refine foldlM_ok (fun merged => merged.index = table.index) h rfl ?_
      intro column _ before after hstep hbefore
      obtain ⟨cells, hcells, hstep⟩ := bind_eq_ok.mp hstep
      refine (index_of_setColumn hstep (.inl ?_)).trans hbefore
      rw [(mapM_ok hcells).1, hbefore]
      exact hlength
  · simp only [ne_eq, hlength, not_false_eq_true, if_true] at h
    exact (throw_ne_ok h).elim

end Table

/-! ## Built-in steps -/

namespace Step

/-- A step is of the kind that it was built for. -/
theorem kind_of_build {kind : StepKind} {params : Value} {step : Step}
    (h : build kind params = .ok step) : step.kind = kind := by
  have hreturns : Returns (fun step => step.kind = kind) (build kind params) := by
    refine .bind fun fields _ => ?_
    -- what is read before does not matter, only the constructor at the end of every branch
    cases kind with
    | convertCase =>
      exact .bind fun _ _ => .ite (.bind fun _ _ => .bind fun _ _ => .bind fun _ _ => .pure rfl)
        (.bind fun _ _ => .bind fun _ _ => .pure rfl)
    | convertType =>
      exact .bind fun _ _ => .bind fun _ _ => .bind fun _ _ => .bind fun _ _ => .pure rfl
    | copy => exact .bind fun _ _ => .pure rfl
    | drop =>
      exact .bind fun _ _ => .ite (.bind fun _ _ => .ite (.bind fun _ _ => .pure rfl) (.pure rfl))
        (.bind fun _ _ => .ite (.bind fun _ _ => .pure rfl) (.pure rfl))
    | rename =>
      exact .bind fun _ _ => .bind fun _ _ => .bind fun _ _ => .ite (.bind fun _ _ => .pure rfl)
        (.pure rfl)
    | selectColumns => exact .bind fun _ _ => .pure rfl
    | selectHead =>
      dsimp only [buildSelectHead]
      split
      · exact .pure rfl
      · exact .throw
    | reindex => exact .pure rfl
    | filter =>
      -- the condition is read or missing; what follows is the same
      have hrest : ∀ condition, Returns (fun step => step.kind = .filter) (do
          let test := CellTest.ofParams? fields
          let input ← Params.selectors fields "input"
          if test.isSome && input.isEmpty then
            throw (.validation "filter requires 'input' with a column test")
          if condition.isNone && test.isNone then
            throw (.validation
              "filter requires 'where' or one of equal, not_equal, contains, is_in")
          return filter condition ((Fields.find? "where_params" fields).getD .null) input test) :=
        fun _ => .bind fun _ _ => .ite
          (.bind fun _ _ => .ite (.bind fun _ _ => .pure rfl) (.pure rfl))
          (.ite (.bind fun _ _ => .pure rfl) (.pure rfl))
      dsimp only [buildFilter]
      split
      · exact .bind fun condition _ => hrest condition
      · exact .bind fun condition _ => hrest condition
      · exact .bind fun condition _ => hrest condition
    | mergeConcatenate =>
      refine .bind fun _ _ => .bind fun output _ => ?_
      split
      · exact .ite (.bind fun _ _ => .pure rfl) (.bind fun _ _ => .pure rfl)
      · exact .throw
    | requestBatch => exact .bind fun _ _ => .bind fun _ _ => .pure rfl
    | requestRow => exact .bind fun _ _ => .bind fun _ _ => .pure rfl
  exact hreturns step h

/-- A filtering keeps the rows at which a mask is true. -/
theorem filterTable_ok {condition : Option (Condition Operand)} {params : Value}
    {input : List String} {test : Option CellTest}
    (h : filterTable table condition params input test = .ok result) :
    ∃ mask, result = table.filterMask mask := by
  have hreturns : Returns (fun result => ∃ mask, result = table.filterMask mask)
      (filterTable table condition params input test) := by
    simp only [filterTable]
    cases condition <;> cases test
    · exact .bind fun _ _ => .bind fun mask _ => .pure ⟨mask, rfl⟩
    · exact .bind fun _ _ => .bind fun _ _ => .bind fun mask _ => .pure ⟨mask, rfl⟩
    · exact .bind fun _ _ => .bind fun mask _ => .pure ⟨mask, rfl⟩
    · exact .bind fun _ _ => .bind fun _ _ => .bind fun mask _ => .pure ⟨mask, rfl⟩
  exact hreturns result h

/-- **Labels after a built-in step.** Every step but the one that labels rows anew returns labels
that were there. -/
theorem index_subset_of_apply {step : Step} (hkind : step.kind ≠ .reindex)
    (h : (step.apply table).runIn context world = (.ok result, world')) :
    result.index ⊆ table.index := by
  cases step with
  | convertCase input output spelling =>
    obtain ⟨h, -⟩ := Engine.ofExcept_ok h
    obtain ⟨pairs, -, h⟩ := bind_eq_ok.mp h
    exact (Table.fills_convertColumns h).index ▸ List.Subset.refl _
  | convertType input output type =>
    obtain ⟨h, -⟩ := Engine.ofExcept_ok h
    obtain ⟨pairs, -, h⟩ := bind_eq_ok.mp h
    exact (Table.fills_convertTypes h).index ▸ List.Subset.refl _
  | copy input output =>
    obtain ⟨h, -⟩ := Engine.ofExcept_ok h
    obtain ⟨pairs, -, h⟩ := bind_eq_ok.mp h
    exact (Table.fills_convertColumns h).index ▸ List.Subset.refl _
  | drop columns =>
    obtain ⟨h, -⟩ := Engine.ofExcept_ok h
    obtain ⟨names, -, h⟩ := bind_eq_ok.mp h
    exact (Table.index_of_edit (Edit.keepsLabels_dropColumns names) h) ▸ List.Subset.refl _
  | rename input output names =>
    cases names with
    | nil =>
      obtain ⟨h, -⟩ := Engine.ofExcept_ok h
      obtain ⟨pairs, -, h⟩ := bind_eq_ok.mp h
      exact (Table.index_of_renameColumns h) ▸ List.Subset.refl _
    | cons name rest =>
      obtain ⟨h, -⟩ := Engine.ofExcept_ok h
      obtain ⟨pairs, -, h⟩ := bind_eq_ok.mp h
      exact (Table.index_of_renameColumns h) ▸ List.Subset.refl _
  | selectColumns input =>
    obtain ⟨h, -⟩ := Engine.ofExcept_ok h
    obtain ⟨names, -, h⟩ := bind_eq_ok.mp h
    exact (Table.index_of_select h) ▸ List.Subset.refl _
  | selectHead count =>
    obtain ⟨rfl, -⟩ := Engine.pure_ok h
    exact Table.index_takeRows_subset _
  | reindex => exact (hkind rfl).elim
  | filter condition params input test =>
    obtain ⟨mask, rfl⟩ := filterTable_ok (Engine.ofExcept_ok h).1
    exact Table.index_takeRows_subset _
  | mergeConcatenate input output separator =>
    obtain ⟨h, -⟩ := Engine.ofExcept_ok h
    obtain ⟨names, -, h⟩ := bind_eq_ok.mp h
    exact (Table.fills_joinTexts h).index ▸ List.Subset.refl _
  | requestBatch request input output size =>
    obtain ⟨names, h⟩ := Engine.ofExcept_bind_ok h
    rcases names with _ | ⟨column, _ | ⟨other, rest⟩⟩
    · exact (Engine.throw_ok h.2).elim
    · obtain ⟨items, -, h⟩ := Engine.ofExcept_bind_ok h.2
      obtain ⟨_, _, -, h⟩ := Engine.bind_ok h
      obtain ⟨answers, _, -, h⟩ := Engine.bind_ok h
      exact (Table.index_of_putAnswers (Engine.ofExcept_ok h).1) ▸ List.Subset.refl _
    · exact (Engine.throw_ok h.2).elim
  | requestRow request input output =>
    obtain ⟨columns, -, h⟩ := Engine.ofExcept_bind_ok h
    obtain ⟨answers, _, -, h⟩ := Engine.bind_ok h
    exact (Table.index_of_putAnswers (Engine.ofExcept_ok h).1) ▸ List.Subset.refl _

end Step

/-! ## Functions called row by row -/

namespace CustomFunction

theorem index_of_putRows {output : List String} {rows : List (List Value)}
    (hrows : rows.length = table.length) (h : putRows table output rows = .ok result) :
    result.index = table.index := by
  refine foldlM_ok (fun filled => filled.index = table.index) h rfl ?_
  rintro ⟨column, place⟩ - before after hstep hbefore
  refine (Table.index_of_setColumn hstep (.inl ?_)).trans hbefore
  rw [List.length_map, hrows, hbefore]
  rfl

/-- A function that was called for every row leaves the labels alone. -/
theorem index_of_invokeOnRows {function : CustomFunction} {params : Fields}
    (h : (function.invokeOnRows table params).runIn context world = (.ok result, world')) :
    result.index = table.index := by
  obtain ⟨⟨input, output⟩, -, h⟩ := Engine.ofExcept_bind_ok h
  obtain ⟨rows, _, hrows, h⟩ := Engine.bind_ok h
  refine index_of_putRows ?_ (Engine.ofExcept_ok h).1
  simpa using Engine.length_of_mapM_ok hrows

end CustomFunction

end TableRecipe
