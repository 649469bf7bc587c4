import TableRecipe.Proofs.Table.Changes
import TableRecipe.Proofs.Table.Rows
import TableRecipe.Table.Combine

/-!
# Tables stay rectangular

Every operation that makes or changes a table keeps the columns as long as the labels. So do all of
them one after the other, in any order and on as many tables as there are, whether they succeed or
not.

* `Table.holds_ofColumns`, `Table.holds_concatenate` — what inserting a column keeps;
* `Table.rectangular_ofRows`, `Table.rectangular_join`, … — the operations one by one;
* `Operation` — an operation on one or two of the tables at hand;
* `Operation.step`, `Operation.run` — the tables at hand after one operation, and after many;
* `Operation.forall_withMade`, … — what holds of all of them;
* `Operation.shape_run` — all of them are rectangular if they were in the beginning.
-/

namespace TableRecipe

namespace Table

variable {table other result : Table}

/-! ## Tables made column by column -/

section

variable {motive : Table → Prop}
  (hset : ∀ name cells, (Edit.setColumn name cells).Keeps motive)
include hset

/-- What inserting a column keeps holds of a table made of columns. -/
theorem holds_ofColumns {columns : List Column} (hempty : motive {})
    (h : ofColumns columns = .ok result) : motive result := by
  refine foldlM_ok motive h hempty ?_
  intro column _ before after hstep hbefore
  split at hstep
  · exact (throw_ne_ok hstep).elim
  · exact (hset column.name column.cells).of_edit hstep hbefore

variable (hmark : ∀ table : Table, motive table → ∀ name, motive (table.markDate name))
include hmark

theorem holds_addColumns {rows : Nat} {source : Table} {columns : List Column}
    (h : addColumns rows source columns table = .ok result) (htable : motive table) :
    motive result := by
  induction columns generalizing table with
  | nil => exact Except.ok.inj h ▸ htable
  | cons column rest ih =>
    rw [addColumns] at h
    split at h
    · exact (throw_ne_ok h).elim
    · obtain ⟨wider, hwider, h⟩ := bind_eq_ok.mp h
      have hinserted := (hset column.name (pad column.cells rows)).of_edit hwider htable
      refine ih h ?_
      split
      · exact hmark wider hinserted column.name
      · exact hinserted

/-- The columns of both tables are inserted one by one. -/
theorem holds_concatenate
    (hempty : motive (ofIndex (List.range (max table.length other.length))))
    (h : table.concatenate other = .ok result) : motive result := by
  obtain ⟨combined, hcombined, h⟩ := bind_eq_ok.mp h
  exact holds_addColumns hset hmark h (holds_addColumns hset hmark hcombined hempty)

end

/-! ## Tables from data -/

theorem rectangular_ofIndex (index : List Nat) : (ofIndex index).Rectangular := nofun

theorem rectangular_ofRows (rows : List Fields) : (ofRows rows).Rectangular := by
  intro column hmem
  obtain ⟨name, -, rfl⟩ := List.mem_map.mp hmem
  simp [ofRows]

/-! ## Labels and empty cells -/

theorem rectangular_resetIndex (h : table.Rectangular) : table.resetIndex.Rectangular := by
  intro column hmem
  exact (h column hmem).trans List.length_range.symm

theorem rectangular_fillMissing (h : table.Rectangular) : table.fillMissing.Rectangular := by
  intro column hmem
  obtain ⟨old, hold, rfl⟩ := List.mem_map.mp hmem
  exact (List.length_map _).trans (h old hold)

/-! ## Tables from tables -/

/-- Where neither side has rows, the columns are empty. -/
theorem rectangular_union (table other : Table) : (table.union other).Rectangular := by
  rw [union]
  split
  · intro column hmem
    obtain ⟨name, -, rfl⟩ := List.mem_map.mp hmem
    rfl
  · exact rectangular_ofRows _

/-- Every column of a join has a cell for every pair of rows. -/
theorem rectangular_join {leftOn rightOn : List String} {kind : JoinKind}
    (h : table.join other leftOn rightOn kind = .ok result) : result.Rectangular := by
  have hreturns : Returns Rectangular (table.join other leftOn rightOn kind) := by
    refine .ite (.bind fun _ h => (throw_ne_ok h).elim) (.bind fun _ _ => .bind fun _ _ => ?_)
    refine .bind fun leftKeys _ => .bind fun rightKeys _ => .pure fun column hmem => ?_
    rcases List.mem_append.mp hmem with hmem | hmem <;>
      obtain ⟨source, -, rfl⟩ := List.mem_map.mp hmem <;>
      simp
  exact hreturns result h

end Table

/-! ## One operation after the other -/

/-- an operation on the tables at hand, which are told apart by their places -/
inductive Operation where
  /-- makes a table from columns -/
  | ofColumns (columns : List Column)
  /-- makes a table from rows -/
  | ofRows (rows : List Fields)
  /-- makes a table without columns -/
  | ofIndex (index : List Nat)
  /-- makes a table from some columns of a table -/
  | select (place : Nat) (names : List String)
  /-- makes a table from the rows of a table at some positions -/
  | takeRows (place : Nat) (positions : List Nat)
  /-- makes a table from the rows of a table at which a mask is true -/
  | filterMask (place : Nat) (mask : List Bool)
  /-- makes a table from the rows of two tables -/
  | union (place other : Nat)
  /-- makes a table from the columns of two tables -/
  | concatenate (place other : Nat)
  /-- makes a table from the rows of two tables that agree on key columns -/
  | join (place other : Nat) (leftOn rightOn : List String) (kind : JoinKind)
  /-- inserts a column, or replaces its cells -/
  | setColumn (place : Nat) (name : String) (cells : List Value)
  /-- removes a column -/
  | dropColumn (place : Nat) (name : String)
  /-- removes columns -/
  | dropColumns (place : Nat) (names : List String)
  /-- renames a column -/
  | renameColumn (place : Nat) (source target : String)
  /-- marks a column as a date -/
  | markDate (place : Nat) (name : String)
  /-- labels the rows anew -/
  | resetIndex (place : Nat)
  /-- fills empty cells -/
  | fillMissing (place : Nat)

namespace Operation

variable {α : Type} {tables : List Table}

/-- the tables at hand with one more, if it could be made -/
def withMade (tables : List Table) : Except Error Table → List Table
  | .ok table => tables ++ [table]
  | .error _ => tables

/-- the tables at hand with one more that is made from one of them -/
def withDerived (tables : List Table) (place : Nat) (make : Table → Except Error Table) :
    List Table :=
  match tables[place]? with
  | some table => withMade tables (make table)
  | none => tables

/-- the tables at hand with one more that is made from two of them -/
def withCombined (tables : List Table) (place other : Nat)
    (make : Table → Table → Except Error Table) : List Table :=
  match tables[place]?, tables[other]? with
  | some table, some other => withMade tables (make table other)
  | _, _ => tables

/-- the tables at hand with one of them changed; a change that fails leaves behind what it changed
before it failed -/
def withChanged (tables : List Table) (place : Nat) (change : Edit α) : List Table :=
  tables.modify place fun table => (change.run table).2

/-- the tables at hand after an operation -/
def step (tables : List Table) : Operation → List Table
  | ofColumns columns => withMade tables (Table.ofColumns columns)
  | ofRows rows => withMade tables (.ok (Table.ofRows rows))
  | ofIndex index => withMade tables (.ok (Table.ofIndex index))
  | select place names => withDerived tables place (·.select names)
  | takeRows place positions => withDerived tables place fun table => .ok (table.takeRows positions)
  | filterMask place mask => withDerived tables place fun table => .ok (table.filterMask mask)
  | union place other => withCombined tables place other fun table other => .ok (table.union other)
  | concatenate place other => withCombined tables place other Table.concatenate
  | join place other leftOn rightOn kind =>
    withCombined tables place other fun table other => table.join other leftOn rightOn kind
  | setColumn place name cells => withChanged tables place (Edit.setColumn name cells)
  | dropColumn place name => withChanged tables place (Edit.dropColumn name)
  | dropColumns place names => withChanged tables place (Edit.dropColumns names)
  | renameColumn place source target => withChanged tables place (Edit.renameColumn source target)
  | markDate place name => withChanged tables place (Edit.markDate name)
  | resetIndex place => withChanged tables place (modify Table.resetIndex : Edit Unit)
  | fillMissing place => withChanged tables place (modify Table.fillMissing : Edit Unit)

/-- the tables at hand after operations, one after the other, whether they succeed or not -/
def run (tables : List Table) (operations : List Operation) : List Table :=
  operations.foldl step tables

section

variable {motive : Table → Prop}

theorem forall_withMade {made : Except Error Table} :
    (∀ table ∈ withMade tables made, motive table) ↔
      (∀ table ∈ tables, motive table) ∧ Returns motive made := by
  cases made with
  | error e => exact ⟨fun h => ⟨h, nofun⟩, fun h => h.1⟩
  | ok table =>
    rw [withMade, List.forall_mem_append, List.forall_mem_singleton]
    exact and_congr_right fun _ => ⟨fun h other hother => Except.ok.inj hother ▸ h, fun h => h _ rfl⟩

theorem forall_withDerived {place : Nat} {make : Table → Except Error Table} :
    (∀ table ∈ withDerived tables place make, motive table) ↔
      (∀ table ∈ tables, motive table) ∧
        ∀ table, tables[place]? = some table → Returns motive (make table) := by
  rw [withDerived]
  split
  · rename_i table htable
    simp [forall_withMade, htable]
  · rename_i hnone
    simp [hnone]

theorem forall_withCombined {place other : Nat} {make : Table → Table → Except Error Table} :
    (∀ table ∈ withCombined tables place other make, motive table) ↔
      (∀ table ∈ tables, motive table) ∧
        ∀ first second, tables[place]? = some first → tables[other]? = some second →
          Returns motive (make first second) := by
  rw [withCombined]
  split
  · rename_i first second hfirst hsecond
    simp [forall_withMade, hfirst, hsecond]
  · rename_i hnone
    refine ⟨fun h => ⟨h, fun first second hfirst hsecond => ?_⟩, fun h => h.1⟩
    exact (hnone first second hfirst hsecond).elim

theorem forall_withChanged {place : Nat} {change : Edit α}
    (htables : ∀ table ∈ tables, motive table) (hchange : change.Keeps motive) :
    ∀ table ∈ withChanged tables place change, motive table := by
  intro changed hmem
  obtain ⟨position, hposition⟩ := List.mem_iff_getElem?.mp hmem
  rw [withChanged, List.getElem?_modify] at hposition
  obtain ⟨table, htable, rfl⟩ := Option.map_eq_some_iff.mp hposition
  have hbefore := htables table (List.mem_of_getElem? htable)
  split
  · exact hchange table hbefore
  · exact hbefore

end

/-- An operation leaves rectangular tables behind, also if it fails. -/
theorem rectangular_step (operation : Operation) (h : ∀ table ∈ tables, table.Rectangular) :
    ∀ table ∈ step tables operation, table.Rectangular := by
  have hat (place : Nat) (table : Table) (htable : tables[place]? = some table) :
      table.Rectangular := h table (List.mem_of_getElem? htable)
  cases operation with
  | ofColumns columns => exact forall_withMade.mpr ⟨h, fun _ =>
      Table.holds_ofColumns Edit.keeps_setColumn (Table.rectangular_ofIndex [])⟩
  | ofRows rows => exact forall_withMade.mpr ⟨h, .pure (Table.rectangular_ofRows rows)⟩
  | ofIndex index => exact forall_withMade.mpr ⟨h, .pure (Table.rectangular_ofIndex index)⟩
  | select place names =>
    exact forall_withDerived.mpr ⟨h, fun table htable _ hselect =>
      (Table.drawsFrom_select hselect).rectangular (hat place table htable)⟩
  | takeRows place positions =>
    exact forall_withDerived.mpr ⟨h, fun table htable =>
      .pure (Table.rectangular_takeRows (hat place table htable) positions)⟩
  | filterMask place mask =>
    exact forall_withDerived.mpr ⟨h, fun table htable =>
      .pure (Table.rectangular_takeRows (hat place table htable) _)⟩
  | union place other =>
    exact forall_withCombined.mpr ⟨h, fun table other _ _ =>
      .pure (Table.rectangular_union table other)⟩
  | concatenate place other =>
    exact forall_withCombined.mpr ⟨h, fun _ _ _ _ _ =>
      Table.holds_concatenate Edit.keeps_setColumn (fun _ => Table.rectangular_markDate)
        (Table.rectangular_ofIndex _)⟩
  | join place other leftOn rightOn kind =>
    exact forall_withCombined.mpr ⟨h, fun _ _ _ _ _ => Table.rectangular_join⟩
  | setColumn place name cells => exact forall_withChanged h (Edit.keeps_setColumn name cells)
  | dropColumn place name =>
    exact forall_withChanged h fun table htable =>
      (Edit.keeps_dropColumn name table (.refl table)).rectangular htable
  | dropColumns place names =>
    exact forall_withChanged h fun table htable =>
      (Edit.keeps_dropColumns names table (.refl table)).rectangular htable
  | renameColumn place source target =>
    exact forall_withChanged h fun table htable =>
      (Edit.keeps_renameColumn source target table (.refl table)).rectangular htable
  | markDate place name =>
    exact forall_withChanged h fun _ htable => Table.rectangular_markDate htable name
  | resetIndex place =>
    exact forall_withChanged h fun _ htable => Table.rectangular_resetIndex htable
  | fillMissing place =>
    exact forall_withChanged h fun _ htable => Table.rectangular_fillMissing htable

theorem rectangular_run (operations : List Operation) (h : ∀ table ∈ tables, table.Rectangular) :
    ∀ table ∈ run tables operations, table.Rectangular := by
  induction operations generalizing tables with
  | nil => exact h
  | cons operation rest ih => exact ih (rectangular_step operation h)

/-- two rows of a letter each -/
def twoLetters : Table where
  columns := [⟨"a", [.string "x", .string "y"]⟩]
  index := [0, 1]

/-- operations some of which fail: a column of one cell for two rows, a name on both sides, a column
that is not there -/
def mixedOperations : List Operation :=
  [.setColumn 0 "b" [.ofInt 1], .setColumn 0 "b" [.ofInt 1, .ofInt 2], .concatenate 0 0,
    .join 0 0 ["a"] ["a"] .outer, .union 0 1, .dropColumns 1 ["a", "c"], .takeRows 2 [3, 0]]

end Operation

end TableRecipe
