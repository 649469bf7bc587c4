import Mathlib.Data.List.Basic
import TableRecipe.Proofs.Table.Changes

/-!
# All or nothing

A change of the columns of a table is made as a whole or not at all. Removing several columns looks
for each of the names before it removes the first column, but a name that is given more often than
there are columns of it passes this check and fails later, when some columns are gone.

* `Table.Covers` — every name stands for a column of its own;
* `Edit.run_dropEach`, `Edit.run_dropEach_short` — columns removed one after the other;
* `Edit.run_dropColumns_missing`, `Edit.run_dropColumns_present` — what the check makes of it;
* `Change` — a change of the columns, `Change.Overdraws` — it asks for more columns than there are;
* `Change.all_or_nothing` — the changes that fail and leave no trace.
-/

namespace TableRecipe

variable {table : Table} {name : String} {names : List String} {α : Type}

namespace Table

/-- whether every name stands for a column of its own -/
def Covers (table : Table) (names : List String) : Prop :=
  ∀ name ∈ names, names.count name ≤ table.names.count name

instance : Decidable (table.Covers names) := inferInstanceAs (Decidable (∀ _ ∈ _, _))

theorem covers_iff : table.Covers names ↔ ∀ name, names.count name ≤ table.names.count name := by
  refine ⟨fun h name => ?_, fun h name _ => h name⟩
  by_cases hmem : name ∈ names
  · exact h name hmem
  · rw [List.count_eq_zero_of_not_mem hmem]
    exact Nat.zero_le _

/-- The first name takes a column away, and the others need columns of their own. -/
theorem covers_cons_iff :
    table.Covers (name :: names) ↔ name ∈ table.names ∧ (table.dropped name).Covers names := by
  simp only [covers_iff, names_dropped]
  constructor
  · intro h
    have hname := h name
    rw [List.count_cons_self] at hname
    refine ⟨List.count_pos_iff.mp (by omega), fun other => ?_⟩
    by_cases hsame : other = name
    · rw [hsame, List.count_erase_self]
      omega
    · rw [List.count_erase_of_ne hsame, ← List.count_cons_of_ne (Ne.symm hsame)]
      exact h other
  · rintro ⟨hmem, h⟩ other
    have hother := h other
    by_cases hsame : other = name
    · have hpos := List.count_pos_iff.mpr hmem
      rw [hsame, List.count_erase_self] at hother
      rw [hsame, List.count_cons_self]
      omega
    · rw [List.count_erase_of_ne hsame] at hother
      rwa [List.count_cons_of_ne (Ne.symm hsame)]

theorem width_dropped_lt (h : name ∈ table.names) : (table.dropped name).width < table.width := by
  have hlength (table : Table) : table.width = table.names.length := (List.length_map _).symm
  have hpos := List.length_pos_of_mem h
  rw [hlength, hlength, names_dropped, List.length_erase_of_mem h]
  omega

theorem cells_of_not_mem (h : name ∉ table.names) :
    table.cells name = .error (.unknownColumn name) := by
  have hnone : table.cells? name = none := by
    rwa [← has_iff_mem_names, has_iff_cells?, Option.not_isSome_iff_eq_none] at h
  rw [Table.cells, hnone]

end Table

namespace Edit

/-! ## Columns removed one after the other -/

theorem run_discard (change : Edit α) :
    (discard change).run table = ((change.run table).1.map fun _ => (), (change.run table).2) := by
  change (change >>= fun _ => pure ()).run table = _
  rw [run_bind]
  rcases change.run table with ⟨_ | a, after⟩ <;> rfl

theorem run_dropColumn_of_mem (h : name ∈ table.names) :
    (discard (dropColumn name)).run table = (.ok (), table.dropped name) := by
  rw [run_discard, run_dropColumn, Table.cells_of_has (Table.has_iff_mem_names.mpr h)]
  rfl

theorem run_dropColumn_of_not_mem (h : name ∉ table.names) :
    (discard (dropColumn name)).run table = (.error (.unknownColumn name), table) := by
  rw [run_discard, run_dropColumn, Table.cells_of_not_mem h]
  rfl

/-- removes columns one after the other -/
def dropEach (names : List String) : Edit Unit := names.forM fun name => discard (dropColumn name)

theorem run_dropEach_of_mem (h : name ∈ table.names) :
    (dropEach (name :: names)).run table = (dropEach names).run (table.dropped name) := by
  change (discard (dropColumn name) >>= fun _ => dropEach names).run table = _
  rw [run_bind, run_dropColumn_of_mem h]

theorem run_dropEach_of_not_mem (h : name ∉ table.names) :
    (dropEach (name :: names)).run table = (.error (.unknownColumn name), table) := by
  change (discard (dropColumn name) >>= fun _ => dropEach names).run table = _
  rw [run_bind, run_dropColumn_of_not_mem h]

theorem run_dropEach (h : table.Covers names) :
    (dropEach names).run table = (.ok (), names.foldl Table.dropped table) := by
  induction names generalizing table with
  | nil => rfl
  | cons name rest ih =>
    obtain ⟨hmem, hrest⟩ := Table.covers_cons_iff.mp h
    rw [run_dropEach_of_mem hmem, ih hrest, List.foldl_cons]

/-- Columns that are too few are removed as far as they go, and then a name is not found. -/
theorem run_dropEach_short (h : ¬table.Covers names) :
    ∃ name ∈ names, ∃ after : Table,
      (dropEach names).run table = (.error (.unknownColumn name), after) ∧
        after.width ≤ table.width := by
  induction names generalizing table with
  | nil => exact (h nofun).elim
  | cons name rest ih =>
    by_cases hmem : name ∈ table.names
    · have hrest : ¬(table.dropped name).Covers rest := fun hrest =>
        h (Table.covers_cons_iff.mpr ⟨hmem, hrest⟩)
      obtain ⟨missing, hmissing, after, hrun, hwidth⟩ := ih hrest
      refine ⟨missing, List.mem_cons_of_mem _ hmissing, after, ?_, ?_⟩
      · rw [run_dropEach_of_mem hmem, hrun]
      · exact Nat.le_trans hwidth (Nat.le_of_lt (Table.width_dropped_lt hmem))
    · exact ⟨name, List.mem_cons_self .., table, run_dropEach_of_not_mem hmem, Nat.le_refl _⟩

/-! ## The check -/

/-- looks for the column of every name -/
def findEach (table : Table) (names : List String) : Edit Unit :=
  names.forM fun name => discard (liftM (table.cells name) : Edit (List Value))

theorem dropColumns_eq : dropColumns names = (get >>= fun table => do
    findEach table names
    dropEach names) := rfl

theorem run_findEach (h : ∀ name ∈ names, name ∈ table.names) :
    (findEach table names).run table = (.ok (), table) := by
  induction names with
  | nil => rfl
  | cons name rest ih =>
    obtain ⟨hmem, hrest⟩ := List.forall_mem_cons.mp h
    change (discard (liftM (table.cells name) : Edit (List Value)) >>= fun _ =>
      findEach table rest).run table = _
    rw [run_bind, run_discard, run_liftM, Table.cells_of_has (Table.has_iff_mem_names.mpr hmem)]
    exact ih hrest

theorem run_findEach_missing (h : ¬∀ name ∈ names, name ∈ table.names) :
    ∃ name ∈ names, name ∉ table.names ∧
      (findEach table names).run table = (.error (.unknownColumn name), table) := by
  induction names with
  | nil => exact (h nofun).elim
  | cons name rest ih =>
    have hcons : findEach table (name :: rest) =
      (discard (liftM (table.cells name) : Edit (List Value)) >>= fun _ =>
        findEach table rest) := rfl
    rw [hcons, run_bind, run_discard, run_liftM]
    by_cases hmem : name ∈ table.names
    · obtain ⟨missing, hmissing, hnot, hrun⟩ := ih fun hall =>
        h (List.forall_mem_cons.mpr ⟨hmem, hall⟩)
      refine ⟨missing, List.mem_cons_of_mem _ hmissing, hnot, ?_⟩
      rw [Table.cells_of_has (Table.has_iff_mem_names.mpr hmem)]
      exact hrun
    · refine ⟨name, List.mem_cons_self .., hmem, ?_⟩
      rw [Table.cells_of_not_mem hmem]
      rfl

/-- A name that is not there is found before any column is removed. -/
theorem run_dropColumns_missing (h : ¬∀ name ∈ names, name ∈ table.names) :
    ∃ name ∈ names, name ∉ table.names ∧
      (dropColumns names).run table = (.error (.unknownColumn name), table) := by
  obtain ⟨name, hname, hmissing, hrun⟩ := run_findEach_missing h
  refine ⟨name, hname, hmissing, ?_⟩
  rw [dropColumns_eq, run_bind, run_get]
  change (findEach table names >>= fun _ => dropEach names).run table = _
  rw [run_bind, hrun]

theorem run_dropColumns_present (h : ∀ name ∈ names, name ∈ table.names) :
    (dropColumns names).run table = (dropEach names).run table := by
  rw [dropColumns_eq, run_bind, run_get]
  change (findEach table names >>= fun _ => dropEach names).run table = _
  rw [run_bind, run_findEach h]

end Edit

/-! ## Changes -/

/-- a change of the columns of a table -/
inductive Change where
  /-- inserts a column, or replaces its cells -/
  | setColumn (name : String) (cells : List Value)
  /-- removes a column -/
  | dropColumn (name : String)
  /-- removes columns -/
  | dropColumns (names : List String)
  /-- renames a column -/
  | renameColumn (source target : String)
  deriving DecidableEq, Repr

namespace Change

/-- the change, carried out; the cells of a column that is removed are not kept -/
def edit : Change → Edit Unit
  | setColumn name cells => Edit.setColumn name cells
  | dropColumn name => discard (Edit.dropColumn name)
  | dropColumns names => Edit.dropColumns names
  | renameColumn source target => Edit.renameColumn source target

/-- whether the change is to remove columns each of which is there, but asks for more columns of a
name than there are -/
def Overdraws (table : Table) : Change → Prop
  | dropColumns names => (∀ name ∈ names, name ∈ table.names) ∧ ¬table.Covers names
  | _ => False

/-- a change that is made as a whole or not at all: if it fails, the table is as it was -/
def IsWhole (table : Table) (change : Change) : Prop :=
  ∀ e, (change.edit.run table).1 = .error e → (change.edit.run table).2 = table

theorem isWhole_setColumn (name : String) (cells : List Value) :
    IsWhole table (setColumn name cells) := by
  intro e he
  rw [edit, Edit.setColumn, Edit.run_bind, Edit.run_get] at he ⊢
  by_cases hlength : cells.length = (Edit.indexFor table cells).length
  · simp [hlength] at he
  · simp [hlength]

theorem isWhole_dropColumn (name : String) : IsWhole table (dropColumn name) := by
  intro e he
  by_cases hmem : name ∈ table.names
  · rw [edit, Edit.run_dropColumn_of_mem hmem] at he
    cases he
  · rw [edit, Edit.run_dropColumn_of_not_mem hmem]

theorem isWhole_renameColumn (source target : String) :
    IsWhole table (renameColumn source target) := by
  intro e he
  rw [edit] at he ⊢
  by_cases hsame : source = target
  · rw [Edit.run_renameColumn_self hsame]
  · by_cases htarget : table.has target
    · rw [Edit.run_renameColumn_taken hsame htarget]
    · by_cases hsource : table.has source
      · rw [Edit.run_renameColumn hsame (by simpa using htarget) hsource] at he
        cases he
      · rw [Edit.run_renameColumn_missing hsame (by simpa using htarget) (by simpa using hsource)]

/-- The first of the columns is gone when a name is not found. -/
theorem not_isWhole_of_overdraws (hpresent : ∀ name ∈ names, name ∈ table.names)
    (hshort : ¬table.Covers names) : ¬IsWhole table (dropColumns names) := by
  intro hwhole
  cases names with
  | nil => exact hshort nofun
  | cons name rest =>
    have hmem := hpresent name (List.mem_cons_self ..)
    have hrest : ¬(table.dropped name).Covers rest := fun hrest =>
      hshort (Table.covers_cons_iff.mpr ⟨hmem, hrest⟩)
    obtain ⟨missing, -, after, hrun, hwidth⟩ := Edit.run_dropEach_short hrest
    have hedit : (dropColumns (name :: rest)).edit.run table =
        (.error (.unknownColumn missing), after) := by
      rw [edit, Edit.run_dropColumns_present hpresent, Edit.run_dropEach_of_mem hmem, hrun]
    have hsame : after = table := by
      have hafter := hwhole (.unknownColumn missing)
      rw [hedit] at hafter
      exact hafter rfl
    rw [hsame] at hwidth
    exact Nat.not_lt.mpr hwidth (Table.width_dropped_lt hmem)

theorem isWhole_dropColumns_iff (names : List String) :
    IsWhole table (dropColumns names) ↔ ¬(dropColumns names).Overdraws table := by
  constructor
  · rintro hwhole ⟨hpresent, hshort⟩
    exact not_isWhole_of_overdraws hpresent hshort hwhole
  · intro h e he
    by_cases hpresent : ∀ name ∈ names, name ∈ table.names
    · have hcovers : table.Covers names := Decidable.byContradiction fun hshort =>
        h ⟨hpresent, hshort⟩
      rw [edit, Edit.run_dropColumns_present hpresent, Edit.run_dropEach hcovers] at he
      cases he
    · obtain ⟨name, -, -, hrun⟩ := Edit.run_dropColumns_missing hpresent
      rw [edit, hrun]

theorem names_foldl_dropped :
    (names.foldl Table.dropped table).names = table.names.diff names := by
  induction names generalizing table with
  | nil => rfl
  | cons name rest ih => rw [List.foldl_cons, ih, Table.names_dropped, List.diff_cons]

/-- **All or nothing.** A change of the columns of a table that fails leaves the table as it was,
unless it is to remove columns each of which is there, but asks for more columns of a name than
there are; then it fails with some of the columns gone. Names that stand for columns of their own
are removed one and all; of names that are not all there, none is removed. -/
theorem all_or_nothing (change : Change) (table : Table) :
    ((∀ e, (change.edit.run table).1 = .error e → (change.edit.run table).2 = table) ↔
      ¬change.Overdraws table) ∧
    ∀ names : List String,
      (table.Covers names →
        (Edit.dropColumns names).run table = (.ok (), names.foldl Table.dropped table) ∧
          (names.foldl Table.dropped table).names = table.names.diff names) ∧
      ((∃ name ∈ names, name ∉ table.names) →
        ∃ name ∈ names, name ∉ table.names ∧
          (Edit.dropColumns names).run table = (.error (.unknownColumn name), table)) := by
  refine ⟨?_, fun names => ⟨fun hcovers => ⟨?_, names_foldl_dropped⟩, fun hmissing => ?_⟩⟩
  · cases change with
    | setColumn name cells => exact iff_of_true (isWhole_setColumn name cells) not_false
    | dropColumn name => exact iff_of_true (isWhole_dropColumn name) not_false
    | dropColumns names => exact isWhole_dropColumns_iff names
    | renameColumn source target =>
      exact iff_of_true (isWhole_renameColumn source target) not_false
  · have hpresent : ∀ name ∈ names, name ∈ table.names := fun name hmem =>
      List.count_pos_iff.mp (Nat.lt_of_lt_of_le (List.count_pos_iff.mpr hmem) (hcovers name hmem))
    rw [Edit.run_dropColumns_present hpresent, Edit.run_dropEach hcovers]
  · obtain ⟨name, hname, hnot⟩ := hmissing
    exact Edit.run_dropColumns_missing fun hall => hnot (hall name hname)

/-- A name that is given twice: the column is gone though the change fails. -/
theorem column_gone_after_failure :
    let table : Table := { columns := [⟨"a", [.ofInt 1]⟩, ⟨"b", [.ofInt 2]⟩], index := [0] }
    (Edit.dropColumns ["a", "a"]).run table =
        (.error (.unknownColumn "a"), { table with columns := [⟨"b", [.ofInt 2]⟩] }) ∧
      ¬∀ e, ((Edit.dropColumns ["a", "a"]).run table).1 = .error e →
        ((Edit.dropColumns ["a", "a"]).run table).2 = table := by
  intro table
  have hrun : (Edit.dropColumns ["a", "a"]).run table =
      (.error (.unknownColumn "a"), { table with columns := [⟨"b", [.ofInt 2]⟩] }) := rfl
  refine ⟨hrun, fun hwhole => ?_⟩
  have hsame := hwhole (.unknownColumn "a")
  rw [hrun] at hsame
  exact absurd (hsame rfl) (by decide)

end Change

end TableRecipe
