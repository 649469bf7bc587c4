import Mathlib.Data.List.Basic
import TableRecipe.Proofs.Json.PlainText
import TableRecipe.Proofs.Outcome
import TableRecipe.Proofs.Table.Columns
import TableRecipe.Table.Combine

/-!
# Rows that agree

`Table.join` finds the rows that agree by one text for each row, in which the keys of its cells
are put together, and copies cells by the places of columns. Beside it stands the join as one
would write it down: every row of one table is held against every row of the other, name by name
and key by key.

* `Table.Agree` — the rows that belong together;
* `Table.joinedRows` — the rows of the four joins, as pairs of rows of both tables;
* `Table.joined` — the table that shows them;
* `Table.join_eq_joined` — the join of two tables is just that.
-/

namespace TableRecipe

/-! ## Items with their places -/

section Places

variable {α β : Type} {items : List α}

theorem zipIdx_map_range (f : Nat → α) (n : Nat) :
    ((List.range n).map f).zipIdx = (List.range n).map fun i => (f i, i) := by
  apply List.ext_getElem <;> simp

/-- Mapping items with their places is mapping the items if the places do not matter. -/
theorem map_zipIdx_eq_map_iff {f : α × Nat → β} {g : α → β} :
    items.zipIdx.map f = items.map g ↔
      ∀ place item, items[place]? = some item → f (item, place) = g item := by
  conv_lhs => rhs; rw [← List.zipIdx_map_fst 0 items, List.map_map]
  rw [List.map_inj_left]
  exact ⟨fun h place item hitem => h _ (List.mem_zipIdx_iff_getElem?.mpr hitem),
    fun h x hx => h x.2 x.1 (List.mem_zipIdx_iff_getElem?.mp hx)⟩

theorem map_zipIdx_eq_map {f : α × Nat → β} {g : α → β}
    (h : ∀ place item, items[place]? = some item → f (item, place) = g item) :
    items.zipIdx.map f = items.map g :=
  map_zipIdx_eq_map_iff.mpr h

theorem filterMap_zipIdx_eq_filter {f : α × Nat → Option α} {p : α → Bool}
    (h : ∀ place item, items[place]? = some item →
      f (item, place) = if p item then some item else none) :
    items.zipIdx.filterMap f = items.filter p := by
  rw [← List.filterMap_eq_filter]
  conv_rhs => rw [← List.zipIdx_map_fst 0 items, List.filterMap_map]
  refine List.filterMap_congr fun x hx => ?_
  rw [h x.2 x.1 (List.mem_zipIdx_iff_getElem?.mp hx)]
  rfl

end Places

namespace Table

variable {table other : Table} {leftOn rightOn names : List String}
  {on : List (String × String)} {name : String} {left right row place : Nat} {column : Column}

/-! ## The join as one would write it down -/

/-- whether a row of one table and a row of another have the same key under every pair of names -/
def Agree (table other : Table) (on : List (String × String)) (left right : Nat) : Prop :=
  ∀ pair ∈ on, (table.cell pair.1 left).key = (other.cell pair.2 right).key

instance : Decidable (Agree table other on left right) :=
  inferInstanceAs (Decidable (∀ pair ∈ on, _ = _))

/-- the rows of the right table that agree with a row of the left one -/
def rightPartners (table other : Table) (on : List (String × String)) (left : Nat) : List Nat :=
  (List.range other.length).filter fun right => Agree table other on left right

/-- the rows of the left table that agree with a row of the right one -/
def leftPartners (table other : Table) (on : List (String × String)) (right : Nat) : List Nat :=
  (List.range table.length).filter fun left => Agree table other on left right

/-- every row of the left table with all its partners, or alone -/
def leftRows (table other : Table) (on : List (String × String)) :
    List (Option Nat × Option Nat) :=
  (List.range table.length).flatMap fun left =>
    if rightPartners table other on left = [] then [(some left, none)]
    else (rightPartners table other on left).map fun right => (some left, some right)

/-- the rows of a join, as pairs of a left and a right row either of which may be missing -/
def joinedRows (table other : Table) (on : List (String × String)) :
    JoinKind → List (Option Nat × Option Nat)
  | .inner => (List.range table.length).flatMap fun left =>
      (rightPartners table other on left).map fun right => (some left, some right)
  | .left => leftRows table other on
  | .right => (List.range other.length).flatMap fun right =>
      if leftPartners table other on right = [] then [(none, some right)]
      else (leftPartners table other on right).map fun left => (some left, some right)
  | .outer => leftRows table other on ++
      ((List.range other.length).filter fun right => leftPartners table other on right = []).map
        fun right => (none, some right)

/-- the cell of a left column: that of the left row; without a left row, that of the right row
under the same name if it is a key there too, else null -/
def leftCell (table other : Table) (on : List (String × String)) (name : String) :
    Option Nat × Option Nat → Value
  | (some left, _) => table.cell name left
  | (none, some right) => if (name, name) ∈ on then other.cell name right else .null
  | (none, none) => .null

/-- the cell of a right column, null without a right row -/
def rightCell (other : Table) (name : String) : Option Nat × Option Nat → Value
  | (_, some right) => other.cell name right
  | (_, none) => .null

/-- the join of two tables on pairs of names: the columns of the left table, then those of the
right one but for keys of the same name on both sides -/
def joined (table other : Table) (on : List (String × String)) (kind : JoinKind) : Table where
  columns :=
    (table.names.map fun name =>
      { name := if (name, name) ∉ on ∧ name ∈ other.names then name ++ "_x" else name
        cells := (joinedRows table other on kind).map (leftCell table other on name) : Column }) ++
    (other.names.filter fun name => (name, name) ∉ on).map fun name =>
      { name := if name ∈ table.names then name ++ "_y" else name
        cells := (joinedRows table other on kind).map (rightCell other name) : Column }
  index := List.range (joinedRows table other on kind).length
  dates := uniteNames table.dates other.dates

/-! ## One text for each row -/

/-- the keys of the cells of a row, put together -/
def keyRow (table : Table) (names : List String) (row : Nat) : String :=
  "\x1f".intercalate (names.map fun name => (table.cell name row).key)

theorem mapM_cells (h : ∀ name ∈ names, table.has name) :
    names.mapM table.cells = .ok (names.map fun name => (table.cells? name).getD []) := by
  rw [mapM_congr fun name hname => cells_of_has (h name hname)]
  exact List.mapM_pure

theorem forM_cells (h : ∀ name ∈ names, table.has name) :
    (names.forM fun name => discard (table.cells name)) = .ok () := by
  induction names with
  | nil => rfl
  | cons name rest ih =>
    obtain ⟨hname, hrest⟩ := List.forall_mem_cons.mp h
    rw [List.forM_eq_forM, List.forM_cons, cells_of_has hname]
    exact ih hrest

theorem keyRows_eq (h : ∀ name ∈ names, table.has name) :
    table.keyRows names = .ok ((List.range table.length).map (table.keyRow names)) := by
  have hcell (name : String) (row : Nat) :
      ((((table.cells? name).getD [])[row]?).getD .null) = table.cell name row := by
    rw [cell, cell?]
    cases table.cells? name <;> simp
  rw [keyRows, mapM_cells h]
  refine congrArg Except.ok (List.map_congr_left fun row _ => ?_)
  simp [keyRow, Function.comp_def, hcell]

/-- No key contains the separator, so the texts of two rows are equal when all their keys are. -/
theorem keyRow_eq_iff (hne : leftOn ≠ []) (hlength : leftOn.length = rightOn.length) :
    table.keyRow leftOn left = other.keyRow rightOn right ↔
      Agree table other (leftOn.zip rightOn) left right := by
  have hplain (table : Table) (names : List String) (row : Nat) :
      ∀ text ∈ names.map fun name => (table.cell name row).key, Plain text.toList := by
    intro text htext
    obtain ⟨name, -, rfl⟩ := List.mem_map.mp htext
    exact Value.plain_key _
  have hne' : rightOn ≠ [] := fun h => hne (List.eq_nil_of_length_eq_zero (by simp [hlength, h]))
  have hkeys := intercalate_inj_of_plain (c := '\x1f') (by decide) (hplain table leftOn left)
    (hplain other rightOn right) (by simpa using hne) (by simpa using hne')
  refine hkeys.trans ?_
  clear hkeys hne hne' hplain
  rw [Agree]
  induction leftOn generalizing rightOn with
  | nil => simp [List.eq_nil_of_length_eq_zero hlength.symm]
  | cons first rest ih =>
    cases rightOn with
    | nil => cases hlength
    | cons first' rest' => simp [ih (Nat.succ.inj hlength)]

/-! ## The pairs of rows -/

theorem positionsOfKey_map_range (keyOf : Nat → String) (n : Nat) (key : String) :
    positionsOfKey ((List.range n).map keyOf) key =
      (List.range n).filter fun row => keyOf row = key := by
  rw [positionsOfKey, zipIdx_map_range, List.filterMap_map, ← List.filterMap_eq_filter]
  refine List.filterMap_congr fun row _ => ?_
  simp [Option.guard]

/-- Rows told apart by texts that are equal when the rows agree are paired as they agree. -/
theorem pairRows_eq {leftKey rightKey : Nat → String} (kind : JoinKind)
    (h : ∀ left right, leftKey left = rightKey right ↔ Agree table other on left right) :
    pairRows kind ((List.range table.length).map leftKey) ((List.range other.length).map rightKey) =
      joinedRows table other on kind := by
  have hright (left : Nat) :
      positionsOfKey ((List.range other.length).map rightKey) (leftKey left) =
        rightPartners table other on left := by
    rw [positionsOfKey_map_range, rightPartners]
    exact List.filter_congr fun right _ => decide_eq_decide.mpr (eq_comm.trans (h left right))
  have hleft (right : Nat) :
      positionsOfKey ((List.range table.length).map leftKey) (rightKey right) =
        leftPartners table other on right := by
    rw [positionsOfKey_map_range, leftPartners]
    exact List.filter_congr fun left _ => decide_eq_decide.mpr (h left right)
  have hmatched (right : Nat) : (∃ left, left < table.length ∧ leftKey left = rightKey right) ↔
      leftPartners table other on right ≠ [] := by
    simp [leftPartners, List.filter_eq_nil_iff, h]
  -- row by row, with partners or without
  cases kind with
  | inner =>
    simp only [pairRows, zipIdx_map_range, List.flatMap_map]
    refine List.flatMap_congr fun left _ => ?_
    simp only [hright]
    cases rightPartners table other on left <;> simp
  | left =>
    simp only [pairRows, zipIdx_map_range, List.flatMap_map]
    refine List.flatMap_congr fun left _ => ?_
    simp only [hright]
    cases rightPartners table other on left <;> simp
  | right =>
    simp only [pairRows, zipIdx_map_range, List.flatMap_map]
    refine List.flatMap_congr fun right _ => ?_
    simp only [hleft]
    cases leftPartners table other on right <;> simp
  | outer =>
    simp only [pairRows, zipIdx_map_range, List.flatMap_map, List.filterMap_map, if_true]
    refine congrArg₂ (· ++ ·) (List.flatMap_congr fun left _ => ?_) ?_
    · simp only [hright]
      cases rightPartners table other on left <;> simp
    · rw [← List.filterMap_eq_map (f := fun right => ((none, some right) : Option Nat × Option Nat)),
        List.filterMap_filter]
      refine List.filterMap_congr fun right _ => ?_
      by_cases hnone : leftPartners table other on right = [] <;> simp [hmatched right, hnone]

/-! ## The columns that are shared -/

theorem cellAt_eq (h : table.columns.find? (·.name = column.name) = some column) :
    cellAt column.cells (some row) = table.cell column.name row := by
  rw [cell, cell?, cells?, h]
  rfl

theorem mem_sharedKeys {place' : Nat} :
    (place, place') ∈ table.sharedKeys other leftOn rightOn ↔
      ∃ name, (name, name) ∈ leftOn.zip rightOn ∧ table.position? name = some place ∧
        other.position? name = some place' := by
  rw [sharedKeys, List.mem_filterMap]
  constructor
  · rintro ⟨⟨name, name'⟩, hmem, hsome⟩
    by_cases hname : name = name'
    · subst hname
      simp only [if_true] at hsome
      obtain ⟨first, hfirst, hsome⟩ := Option.bind_eq_some_iff.mp hsome
      obtain ⟨second, hsecond, hsome⟩ := Option.bind_eq_some_iff.mp hsome
      obtain ⟨rfl, rfl⟩ := Prod.mk.inj (Option.some.inj hsome)
      exact ⟨name, hmem, hfirst, hsecond⟩
    · simp [hname] at hsome
  · rintro ⟨name, hmem, hfirst, hsecond⟩
    exact ⟨(name, name), hmem, by simp [hfirst, hsecond]⟩

/-- A place of the right table is that of a shared key if its name is paired with itself. -/
theorem any_sharedKeys (hother : other.DistinctNames) (hleft : ∀ name ∈ leftOn, table.has name)
    (h : other.columns[place]? = some column) :
    (table.sharedKeys other leftOn rightOn).any (·.2 = place) ↔
      (column.name, column.name) ∈ leftOn.zip rightOn := by
  rw [List.any_eq_true]
  constructor
  · rintro ⟨⟨first, second⟩, hmem, hsecond⟩
    obtain rfl : second = place := by simpa using hsecond
    obtain ⟨name, hon, -, hplace⟩ := mem_sharedKeys.mp hmem
    obtain ⟨column', hcolumn', rfl⟩ := (position?_eq_some_iff hother).mp hplace
    obtain rfl := Option.some.inj (hcolumn'.symm.trans h)
    exact hon
  · intro hon
    obtain ⟨first, hfirst⟩ := exists_position? (hleft _ (List.of_mem_zip hon).1)
    have hplace := (position?_eq_some_iff hother).mpr ⟨column, h, rfl⟩
    exact ⟨(first, place), mem_sharedKeys.mpr ⟨_, hon, hfirst, hplace⟩, by simp⟩

/-- The partner of a left column is the right column of its name, if the two are paired. -/
theorem find?_sharedKeys (hdistinct : table.DistinctNames) (hother : other.DistinctNames)
    (hright : ∀ name ∈ rightOn, other.has name) (h : table.columns[place]? = some column) :
    (((table.sharedKeys other leftOn rightOn).find? (·.1 = place)).bind
        fun (_, place) => other.columns[place]?) =
      if (column.name, column.name) ∈ leftOn.zip rightOn then
        other.columns.find? (·.name = column.name)
      else none := by
  have hplace := (position?_eq_some_iff hdistinct).mpr ⟨column, h, rfl⟩
  rcases hfind : (table.sharedKeys other leftOn rightOn).find? (·.1 = place) with _ | ⟨first, second⟩
  · have hon : (column.name, column.name) ∉ leftOn.zip rightOn := fun hon => by
      obtain ⟨second, hsecond⟩ := exists_position? (hright _ (List.of_mem_zip hon).2)
      have hmem := mem_sharedKeys.mpr ⟨_, hon, hplace, hsecond⟩
      simpa using List.find?_eq_none.mp hfind _ hmem
    rw [hfind, if_neg hon]
    rfl
  · obtain rfl : first = place := by simpa using List.find?_some hfind
    obtain ⟨name, hon, hfirst, hsecond⟩ := mem_sharedKeys.mp (List.mem_of_find?_eq_some hfind)
    obtain ⟨column', hcolumn', rfl⟩ := (position?_eq_some_iff hdistinct).mp hfirst
    obtain rfl := Option.some.inj (hcolumn'.symm.trans h)
    obtain ⟨partner, hpartner, hname⟩ := (position?_eq_some_iff hother).mp hsecond
    rw [hfind, if_pos hon, ← hname, find?_of_getElem? hother hpartner]
    exact hpartner

/-- The cell of a left column, copied by its place, is that under its name. -/
theorem leftCell_eq (hdistinct : table.DistinctNames) (hother : other.DistinctNames)
    (hright : ∀ name ∈ rightOn, other.has name) (h : table.columns[place]? = some column)
    (row : Option Nat × Option Nat) :
    (match row.1, ((table.sharedKeys other leftOn rightOn).find? (·.1 = place)).bind
        fun (_, place) => other.columns[place]? with
      | none, some partner => cellAt partner.cells row.2
      | left, _ => cellAt column.cells left) =
      leftCell table other (leftOn.zip rightOn) column.name row := by
  rw [find?_sharedKeys hdistinct hother hright h]
  rcases row with ⟨_ | left, right⟩
  · by_cases hon : (column.name, column.name) ∈ leftOn.zip rightOn
    · obtain ⟨place', hplace'⟩ := exists_position? (hright _ (List.of_mem_zip hon).2)
      obtain ⟨partner, hpartner, hname⟩ := (position?_eq_some_iff hother).mp hplace'
      have hfind := find?_of_getElem? hother hpartner
      rw [if_pos hon, ← hname, hfind]
      cases right with
      | none => rfl
      | some right =>
        rw [leftCell, hname, if_pos hon, ← hname]
        exact cellAt_eq hfind
    · rw [if_neg hon]
      cases right with
      | none => rfl
      | some right => simp [leftCell, hon, cellAt]
  · exact cellAt_eq (find?_of_getElem? hdistinct h)

theorem rightCell_eq (hother : other.DistinctNames) (h : column ∈ other.columns)
    (row : Option Nat × Option Nat) :
    cellAt column.cells row.2 = rightCell other column.name row := by
  obtain ⟨place, hplace⟩ := List.mem_iff_getElem?.mp h
  rcases row with ⟨left, _ | right⟩
  · rfl
  · exact cellAt_eq (find?_of_getElem? hother hplace)

/-- The right columns that a join shows are those whose names are not paired with themselves. -/
theorem filterMap_sharedKeys (hother : other.DistinctNames) (hleft : ∀ name ∈ leftOn, table.has name) :
    (other.columns.zipIdx.filterMap fun (column, place) =>
      if (table.sharedKeys other leftOn rightOn).any (·.2 = place) then none else some column) =
      other.columns.filter fun column => (column.name, column.name) ∉ leftOn.zip rightOn := by
  refine filterMap_zipIdx_eq_filter fun place column h => ?_
  have hshared : _ ↔ (column.name, column.name) ∈ leftOn.zip rightOn :=
    any_sharedKeys hother hleft h
  by_cases hon : (column.name, column.name) ∈ leftOn.zip rightOn
  · simp only [hshared.mpr hon, hon]
    simp
  · simp only [mt hshared.mp hon, hon]
    simp

/-- The join of two tables has the rows of the written-down join, in their order, and shows them
in its columns. -/
theorem join_eq_joined (kind : JoinKind) (hdistinct : table.DistinctNames)
    (hother : other.DistinctNames) (hne : leftOn ≠ []) (hlength : leftOn.length = rightOn.length)
    (hleft : ∀ name ∈ leftOn, table.has name) (hright : ∀ name ∈ rightOn, other.has name) :
    table.join other leftOn rightOn kind = .ok (joined table other (leftOn.zip rightOn) kind) := by
  have hguard : (leftOn.isEmpty || decide (leftOn.length ≠ rightOn.length)) = false := by
    simp [hne, hlength]
  have hagree (left right : Nat) : table.keyRow leftOn left = other.keyRow rightOn right ↔
      Agree table other (leftOn.zip rightOn) left right := keyRow_eq_iff hne hlength
  have hpairs := pairRows_eq kind hagree
  rw [join]
  simp only [hguard, forM_cells hleft, forM_cells hright, keyRows_eq hleft, keyRows_eq hright,
    filterMap_sharedKeys hother hleft]
  refine congrArg Except.ok ?_
  simp only [hpairs]
  rw [joined, Table.names, Table.names, List.map_map, List.filter_map, List.map_map]
  congr 2
  · refine map_zipIdx_eq_map fun place column h => congrArg₂ Column.mk ?_ ?_
    · refine ite_congr (propext ?_) (fun _ => rfl) fun _ => rfl
      simp only [List.any_filter, List.any_eq_true, Bool.and_eq_true, decide_eq_true_eq,
        List.mem_map]
      constructor
      · rintro ⟨column', hmem, hon, hname⟩
        exact ⟨hname ▸ hon, column', hmem, hname⟩
      · rintro ⟨hon, column', hmem, hname⟩
        exact ⟨column', hmem, hname ▸ hon, hname⟩
    · exact List.map_congr_left fun row _ => leftCell_eq hdistinct hother hright h row
  · refine List.map_congr_left fun column hcolumn => congrArg₂ Column.mk ?_ ?_
    · simp only [has_iff_mem_names, Table.names]
    · exact List.map_congr_left fun row _ =>
        rightCell_eq hother (List.mem_of_mem_filter hcolumn) row

/-- trips to cities in some year -/
def trips : Table where
  columns := [⟨"city", [.string "oslo", .string "rome", .string "rome"]⟩,
    ⟨"year", [.ofInt 1, .ofInt 2, .ofInt 2]⟩, ⟨"note", [.string "cold", .null, .string "warm"]⟩]
  index := [0, 1, 2]

/-- guides to cities since some year -/
def guides : Table where
  columns := [⟨"since", [.ofInt 2, .ofInt 5, .ofInt 2]⟩,
    ⟨"city", [.string "rome", .string "bern", .string "rome"]⟩,
    ⟨"note", [.string "young", .string "old", .null]⟩]
  index := [0, 1, 2]

theorem join_eq_joined_trips :
    trips.join guides ["city", "year"] ["city", "since"] .outer =
        .ok (joined trips guides [("city", "city"), ("year", "since")] .outer) ∧
      joinedRows trips guides [("city", "city"), ("year", "since")] .outer =
        [(some 0, none), (some 1, some 0), (some 1, some 2), (some 2, some 0), (some 2, some 2),
          (none, some 1)] ∧
      (joined trips guides [("city", "city"), ("year", "since")] .outer).columns.map
          (fun column => (column.name, column.cells.getLast?)) =
        [("city", some (.string "bern")), ("year", some .null), ("note_x", some .null),
          ("since", some (.ofInt 5)), ("note_y", some (.string "old"))] :=
  ⟨join_eq_joined .outer (by simp [DistinctNames, Table.names, trips])
      (by simp [DistinctNames, Table.names, guides]) (by simp) rfl (by decide) (by decide),
    by decide +kernel, by decide +kernel⟩

end Table

end TableRecipe
