import TableRecipe.Proofs.Recipe.NestedScope
import TableRecipe.Proofs.Recipe.PutBack

/-!
# Columns taken over from a recipe

A recipe as a step returns a table of its own: its steps may have reordered, dropped, repeated or
added rows. If the step names no columns, that table takes the place of the one it was given; else
these columns are taken over by label, nulls included, and everything else stays in its place.

* `Table.lastCell` — the last cell under a label;
* `Recipe.TakenOver` — a table with columns taken over;
* `Recipe.applyStep_recipe_ok` — what a recipe as a step returns.
-/

namespace TableRecipe

variable {table merged returned result : Table} {column : String} {columns : List String}
  {row label : Nat}

/-- the last cell of a column under a label, be it null or not -/
def Table.lastCell (table : Table) (column : String) (label : Nat) : Option Value :=
  lastUnder label (table.index.zip ((table.cells? column).getD []))

namespace Recipe

variable {context : Context} {world world' : World} {run : Runner} {bindings : Fields}
  {value : Value}

/-! ## One column -/

theorem takeColumn_edit (h : takeColumn returned merged column = .ok result) :
    ∃ incoming, returned.cells? column = some incoming ∧
      merged.edit (Edit.setColumn column (putAt (cellsOrNulls merged column)
        ((returned.index.zip incoming).filterMap fun (label, cell) =>
          (merged.lastPosition? label).map (·, cell)))) = .ok result := by
  obtain ⟨incoming, hincoming, h⟩ := bind_eq_ok.mp h
  exact ⟨incoming, Table.cells_eq_ok.mp hincoming, h⟩

/-- Of entries under labels, those whose labels are in a table go to the rows of these labels. -/
theorem lastUnder_filterMap_positions (hdistinct : merged.index.Nodup)
    (hrow : merged.index[row]? = some label) (entries : List (Nat × Value)) :
    lastUnder row (entries.filterMap fun (label, cell) =>
      (merged.lastPosition? label).map (·, cell)) = lastUnder label entries := by
  induction entries with
  | nil => rfl
  | cons entry rest ih =>
    obtain ⟨other, cell⟩ := entry
    have hsame : merged.lastPosition? other = some row ↔ other = label :=
      Table.lastPosition?_eq_some_row_iff hdistinct hrow
    rcases hposition : merged.lastPosition? other with _ | position <;> rw [hposition] at hsame
    · -- the label is not in the table, so it is not that of the row
      have hne : other ≠ label := fun heq => nomatch hsame.mpr heq
      rw [List.filterMap_cons_none (by simp [hposition]), ih]
      simp [lastUnder, hne]
    · rw [Option.some_inj] at hsame
      rw [List.filterMap_cons_some (b := (position, cell)) (by simp [hposition])]
      simp only [lastUnder, ih, hsame]

theorem cell?_takeColumn (hdistinct : merged.index.Nodup) (hrow : merged.index[row]? = some label)
    (h : takeColumn returned merged column = .ok result) (other : String) :
    result.cell? other row =
      if other = column then some ((returned.lastCell column label).getD (merged.cell column row))
      else merged.cell? other row := by
  obtain ⟨incoming, hincoming, h⟩ := takeColumn_edit h
  by_cases hother : other = column
  · subst hother
    have hlt : row < merged.index.length := (List.getElem?_eq_some_iff.mp hrow).1
    rw [if_pos rfl, cell?_putAt h hlt, lastUnder_filterMap_positions hdistinct hrow,
      Table.lastCell, hincoming, Option.getD_some]
  · rw [if_neg hother, Table.cell?, Table.cells?_setColumn h, if_neg hother]
    rfl

/-! ## All columns -/

/-- a table with columns taken over: nothing changes but the columns given, and there the last cell
under the label of a row takes the place of the cell there was, or of a null in a new column -/
structure TakenOver (table returned : Table) (columns : List String) (result : Table) : Prop
    extends table.Writes columns result where
  cells : ∀ column ∈ columns, ∀ (row label : Nat), table.index[row]? = some label →
    result.cell? column row =
      some ((returned.lastCell column label).getD (table.cell column row))
  dates_eq : result.dates = table.dates

theorem takenOver_mergeColumns (hdistinct : table.index.Nodup)
    (h : mergeColumns table returned columns = .ok result) :
    TakenOver table returned columns result := by
  have hstep : ∀ before column after, takeColumn returned before column = .ok after →
      before.Writes [id column] after := by
    intro before column after h
    obtain ⟨incoming, -, h⟩ := takeColumn_edit h
    exact writes_putAt h
  have hwrites : table.Writes columns result := by
    simpa using Table.Writes.foldlM hstep h
  refine ⟨hwrites, ?_, ?_⟩
  · intro column hcolumn row label hrow
    have hcell := cell?_foldlM (returned.lastCell · label) (fun before name after hbefore h =>
      ⟨(hstep before name after h).index.trans hbefore,
        cell?_takeColumn (hbefore ▸ hdistinct) (hbefore ▸ hrow) h⟩) rfl h column
    rw [hcell, if_pos hcolumn]
  · refine foldlM_ok (fun merged => merged.dates = table.dates) h rfl ?_
    intro column _ before after h hbefore
    obtain ⟨incoming, -, h⟩ := takeColumn_edit h
    exact (Table.dates_of_setColumn h).trans hbefore

/-- **Columns taken over.** A recipe as a step returns the table of the recipe if the step names no
columns. If it names some, labels, rows and all other columns stay as they are; the columns that the
selectors find in the table of the recipe hold, in the row of a label, the last cell under this label
there, null included, and where there is no such label the old cell, or a null in a new column. -/
theorem applyStep_recipe_ok (hdistinct : table.index.Nodup)
    (h : (applyStep run "recipe" value table bindings).runIn context world =
      (.ok result, world')) :
    ∃ params output returned, Params.ofValue "recipe" value = .ok params ∧
      Params.selectors params "output_columns" = .ok output ∧
      (nested run params (some table)).runIn context world = (.ok returned, world') ∧
      (output = [] → result = returned) ∧
      (output ≠ [] → ∃ columns, Selector.expand returned.names output = .ok columns ∧
        TakenOver table returned columns result) := by
  rw [applyStep_recipe] at h
  obtain ⟨params, hparams, h⟩ := Engine.ofExcept_bind_ok h
  split at h
  · exact (Engine.throw_ok h).elim
  obtain ⟨output, houtput, h⟩ := Engine.ofExcept_bind_ok h
  obtain ⟨returned, middle, hnested, h⟩ := Engine.bind_ok h
  refine ⟨params, output, returned, hparams, houtput, ?_⟩
  cases output with
  | nil =>
    obtain ⟨rfl, rfl⟩ := Engine.pure_ok h
    exact ⟨hnested, fun _ => rfl, fun hsome => absurd rfl hsome⟩
  | cons first rest =>
    obtain ⟨columns, hcolumns, h⟩ := Engine.ofExcept_bind_ok h
    obtain ⟨hmerged, rfl⟩ := Engine.ofExcept_ok h
    exact ⟨hnested, nofun, fun _ => ⟨columns, hcolumns, takenOver_mergeColumns hdistinct hmerged⟩⟩

/-- a recipe that keeps two rows and writes a column in capitals, as a step that takes over the
columns given -/
def firstTwo (columns : List String) : Value :=
  .object [("name", .object [("wrangles", .list [
      .object [("select.head", .object [("n", .number (.integer 2))])],
      .object [("convert.case", .object [("input", .string "a"), ("case", .string "upper")])]])]),
    ("output_columns", .list (columns.map .string))]

/-- the table that this recipe returns for the three rows -/
def twoOfShelf : Table where
  columns := [⟨"a", [.string "P", .string "Q"]⟩, ⟨"b", [.string "", .bool true]⟩]
  index := [4, 2]

/-- the three rows with one column taken over -/
def shelfWithCapitals : Table where
  columns := [⟨"a", [.string "P", .string "Q", .string "r"]⟩, ⟨"b", [.null, .bool true, .null]⟩]
  index := [4, 2, 7]

theorem applyStep_recipe_ok_firstTwo :
    shelf.index.Nodup ∧
      (applyStep (Task.perform 3) "recipe" (firstTwo ["a"]) shelf []).runIn {} {} =
        (.ok shelfWithCapitals, {}) ∧
      TakenOver shelf twoOfShelf ["a"] shelfWithCapitals := by
  have hdistinct : shelf.index.Nodup := by decide
  have hrun : (applyStep (Task.perform 3) "recipe" (firstTwo ["a"]) shelf []).runIn {} {} =
      (.ok shelfWithCapitals, {}) := by decide +kernel
  obtain ⟨params, output, returned, hparams, houtput, hnested, -, htaken⟩ :=
    applyStep_recipe_ok hdistinct hrun
  obtain rfl := Except.ok.inj hparams
  obtain rfl : ["a"] = output := Except.ok.inj houtput
  have hreturned : ((do
      nested (Task.perform 3) (← Engine.ofExcept (Params.ofValue "recipe" (firstTwo ["a"])))
        (some shelf)) : Engine Table).runIn {} {} = (.ok twoOfShelf, {}) := by decide +kernel
  obtain rfl : returned = twoOfShelf :=
    Except.ok.inj (congrArg Prod.fst (hnested.symm.trans hreturned))
  obtain ⟨columns, hcolumns, htaken⟩ := htaken (List.cons_ne_nil _ _)
  have hfound : Selector.expand twoOfShelf.names ["a"] = .ok ["a"] := by decide +kernel
  obtain rfl := Except.ok.inj (hcolumns.symm.trans hfound)
  exact ⟨hdistinct, hrun, htaken⟩

/-- Without columns to take over, a row that the recipe drops is gone. -/
theorem row_lost_without_columns :
    shelf.index.Nodup ∧
      ∃ result, ((applyStep (Task.perform 3) "recipe" (firstTwo []) shelf []).runIn {} {}).1 =
        .ok result ∧ result.index ≠ shelf.index :=
  ⟨by decide, twoOfShelf, by decide +kernel, by decide⟩

end Recipe

end TableRecipe
