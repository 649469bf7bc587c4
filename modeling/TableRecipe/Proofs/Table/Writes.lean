import TableRecipe.Proofs.Step.Filling
import TableRecipe.Selector.Basic

/-!
# Columns written

Steps and merges write columns one after the other. Of the rest of a table nothing changes, and
nothing moves: a column that is written keeps its place, a new one goes last.

* `Table.Writes` — what such a change does to a table;
* `Table.Writes.setColumn`, `Table.Writes.foldlM` — one column, and one after the other.
-/

namespace TableRecipe

variable {before middle after table result : Table} {name other : String} {cells : List Value}
  {written more : List String}

namespace Edit

/-- A column of another name stays where it is. -/
theorem getElem?_putCells_of_ne {columns : List Column} {place : Nat} {column : Column}
    (h : columns[place]? = some column) (hname : column.name ≠ name) :
    (putCells name cells columns)[place]? = some column := by
  induction columns generalizing place with
  | nil => simp at h
  | cons first rest ih =>
    cases place with
    | zero =>
      obtain rfl : first = column := by simpa using h
      simp [putCells, hname]
    | succ place =>
      rw [putCells]
      split
      · exact h
      · exact ih h

end Edit

namespace Table

/-- a change that writes columns, in the order given: one that is there keeps its place, a new one
goes last, and all others stay as and where they are -/
structure Writes (written : List String) (before after : Table) : Prop
    extends Fills written before after where
  order : after.names = written.foldl Selector.addOnce before.names
  places : ∀ (place : Nat) (column : Column), before.columns[place]? = some column →
    column.name ∉ written → after.columns[place]? = some column
  marks : ∀ other, other ∉ written → (other ∈ after.dates ↔ other ∈ before.dates)

namespace Writes

theorem refl (table : Table) : Writes [] table table where
  toFills := .refl table
  order := rfl
  places _ _ h _ := h
  marks _ _ := Iff.rfl

theorem trans (h : Writes written before middle) (h' : Writes more middle after) :
    Writes (written ++ more) before after where
  toFills := h.toFills.trans h'.toFills
  order := by rw [h'.order, h.order, List.foldl_append]
  places place column hcolumn hname := by
    simp only [List.mem_append, not_or] at hname
    exact h'.places place column (h.places place column hcolumn hname.1) hname.2
  marks other hother := by
    simp only [List.mem_append, not_or] at hother
    exact (h'.marks other hother.2).trans (h.marks other hother.1)

/-- Inserting a column writes it. -/
theorem setColumn (h : before.edit (Edit.setColumn name cells) = .ok after)
    (hcells : cells.length = before.index.length ∨ before.columns ≠ []) :
    Writes [name] before after where
  toFills := .setColumn h hcells
  order := by
    obtain ⟨-, rfl⟩ := edit_setColumn_ok.mp h
    refine Edit.names_putCells.trans ?_
    rw [List.foldl_cons, List.foldl_nil, Selector.addOnce]
    by_cases hname : ∃ column ∈ before.columns, column.name = name
    · simp [Table.names, hname]
    · simp [Table.names, hname]
  places place column hcolumn hname := by
    obtain ⟨-, rfl⟩ := edit_setColumn_ok.mp h
    exact Edit.getElem?_putCells_of_ne hcolumn (by simpa using hname)
  marks other _ := by rw [dates_of_setColumn h]

/-- The date mark of a column that was written may be put with it. -/
theorem markDate (h : Writes written before after) (hname : name ∈ written) :
    Writes written before (after.markDate name) where
  toFills := h.toFills.markDate
  order := by
    rw [Table.names, columns_markDate]
    exact h.order
  places place column hcolumn hother := by
    rw [columns_markDate]
    exact h.places place column hcolumn hother
  marks other hother := by
    have hne : other ≠ name := fun heq => hother (heq ▸ hname)
    simp [mem_dates_markDate, hne, h.marks other hother]

/-- A change that writes one column after the other writes them all. -/
theorem foldlM {α : Type} {f : Table → α → Except Error Table} {target : α → String}
    (hf : ∀ before item after, f before item = .ok after → Writes [target item] before after)
    {items : List α} (h : items.foldlM f table = .ok result) :
    Writes (items.map target) table result := by
  induction items generalizing table with
  | nil =>
    obtain rfl := Except.ok.inj h
    exact refl table
  | cons item rest ih =>
    rw [List.foldlM_cons] at h
    obtain ⟨middle, hitem, hrest⟩ := bind_eq_ok.mp h
    exact (hf _ _ _ hitem).trans (ih hrest)

end Writes

end Table

end TableRecipe
