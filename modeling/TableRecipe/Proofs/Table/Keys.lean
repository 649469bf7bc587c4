import Mathlib.Data.List.Basic
import TableRecipe.Proofs.Json.Apart
import TableRecipe.Proofs.Table.Join

/-!
# Cells told apart by their keys

Joins and distinct values never look at cells themselves: they compare keys, for rows the keys of
several cells put together. Since a key tells which value it belongs to, neither of them takes
different cells for the same, `1` for `1.0` or `"1"`, nor the same for different.

* `Table.ValidCells` — tables all of whose cells JSON knows;
* `Table.keyRow_inj` — the key of a row tells which cells it is made of;
* `Table.FirstOccurrences` — the items of a list, each at the place where it first occurs;
* `Table.firstOccurrences_distinct` — distinct values are just these;
* `Table.keys_exact` — keys of cells, of rows, and distinct values.
-/

namespace TableRecipe

namespace Table

variable {table other : Table} {leftOn rightOn : List String} {name : String} {left right : Nat}
  {value : Value} {cells found found' : List Value} {seen : List String}

/-- whether JSON knows all the numbers in the cells of a table -/
def ValidCells (table : Table) : Prop := ∀ column ∈ table.columns, ∀ cell ∈ column.cells, cell.Valid

theorem ValidCells.cells? (h : table.ValidCells) (hcells : table.cells? name = some cells) :
    ∀ cell ∈ cells, cell.Valid := by
  obtain ⟨column, hcolumn, -, rfl⟩ := cells?_mem hcells
  exact h column hcolumn

theorem ValidCells.cell (h : table.ValidCells) (name : String) (row : Nat) :
    (table.cell name row).Valid := by
  rw [Table.cell, cell?]
  cases hcells : table.cells? name with
  | none => trivial
  | some cells =>
    rw [Option.bind_some]
    cases hcell : cells[row]? with
    | none => trivial
    | some cell => exact h.cells? hcells cell (List.mem_of_getElem? hcell)

/-! ## Rows -/

/-- Rows have the same key if and only if their cells are the same, one by one. -/
theorem keyRow_inj (htable : table.ValidCells) (hother : other.ValidCells)
    (hlength : leftOn.length = rightOn.length) :
    table.keyRow leftOn left = other.keyRow rightOn right ↔
      ∀ pair ∈ leftOn.zip rightOn, table.cell pair.1 left = other.cell pair.2 right := by
  by_cases hne : leftOn = []
  · obtain rfl : rightOn = [] := List.eq_nil_of_length_eq_zero (by simp [← hlength, hne])
    simp [hne, keyRow]
  · rw [keyRow_eq_iff hne hlength, Agree]
    exact forall₂_congr fun pair _ =>
      Value.key_inj (htable.cell pair.1 left) (hother.cell pair.2 right)

/-! ## Distinct values -/

/-- the values of a list, each of them once and in the order in which they first occur -/
structure FirstOccurrences (cells found : List Value) : Prop where
  /-- no value occurs twice -/
  nodup : found.Nodup
  /-- the values are those of the list -/
  mem_iff : ∀ value, value ∈ found ↔ value ∈ cells
  /-- they stand in the order of their first places in the list -/
  order : found.Pairwise fun earlier later => cells.idxOf earlier < cells.idxOf later

/-- There is only one such list. -/
theorem FirstOccurrences.unique (h : FirstOccurrences cells found)
    (h' : FirstOccurrences cells found') : found = found' := by
  have hperm : found.Perm found' := (List.perm_ext_iff_of_nodup h.nodup h'.nodup).mpr fun value =>
    (h.mem_iff value).trans (h'.mem_iff value).symm
  exact hperm.eq_of_pairwise (fun _ _ _ _ hlt hgt => absurd hlt hgt.asymm) h.order h'.order

/-- What was seen is left out. -/
theorem key_not_mem_of_mem_distinct (h : value ∈ distinct seen cells) : value.key ∉ seen := by
  induction cells generalizing seen with
  | nil => cases h
  | cons cell rest ih =>
    rw [distinct] at h
    split at h
    · exact ih h
    · rename_i hnew
      rcases List.mem_cons.mp h with rfl | h
      · simpa using hnew
      · exact fun hmem => ih h (List.mem_cons_of_mem _ hmem)

theorem distinct_subset : distinct seen cells ⊆ cells := by
  induction cells generalizing seen with
  | nil => exact List.Subset.refl _
  | cons cell rest ih =>
    rw [distinct]
    split
    · exact List.subset_cons_of_subset _ ih
    · exact List.cons_subset_cons _ ih

/-- A value is not left out unless its key was seen, since no other value has this key. -/
theorem mem_distinct (hvalid : ∀ cell ∈ cells, cell.Valid) (hmem : value ∈ cells)
    (hkey : value.key ∉ seen) : value ∈ distinct seen cells := by
  induction cells generalizing seen with
  | nil => cases hmem
  | cons cell rest ih =>
    obtain ⟨hcell, hrest⟩ := List.forall_mem_cons.mp hvalid
    rw [distinct]
    rcases List.mem_cons.mp hmem with rfl | hlater
    · rw [if_neg (by simpa using hkey)]
      exact List.mem_cons_self ..
    · split
      · exact ih hrest hlater hkey
      · by_cases hsame : value = cell
        · exact hsame ▸ List.mem_cons_self ..
        · have hdiffer : value.key ≠ cell.key :=
            mt (Value.key_inj (hvalid value hmem) hcell).mp hsame
          refine List.mem_cons_of_mem _ (ih hrest hlater ?_)
          simp [hdiffer, hkey]

/-- The walk through the cells keeps their order. -/
theorem pairwise_distinct : (distinct seen cells).Pairwise
    fun earlier later => cells.idxOf earlier < cells.idxOf later := by
  induction cells generalizing seen with
  | nil => exact .nil
  | cons cell rest ih =>
    -- what comes after a cell that was seen first occurs behind this cell
    have hbehind {seen : List String} (hcell : cell.key ∈ seen) :
        ∀ value ∈ distinct seen rest, (cell :: rest).idxOf value = rest.idxOf value + 1 := by
      intro value hvalue
      refine List.idxOf_cons_ne rest ?_
      rintro rfl
      exact key_not_mem_of_mem_distinct hvalue hcell
    have hlater {seen : List String} (hcell : cell.key ∈ seen) : (distinct seen rest).Pairwise
        fun earlier later => (cell :: rest).idxOf earlier < (cell :: rest).idxOf later := by
      refine ih.imp_of_mem fun hearlier hlater hlt => ?_
      rw [hbehind hcell _ hearlier, hbehind hcell _ hlater]
      exact Nat.succ_lt_succ hlt
    rw [distinct]
    split
    · exact hlater (by simp_all)
    · refine .cons (fun value hvalue => ?_) (hlater (List.mem_cons_self ..))
      rw [hbehind (List.mem_cons_self ..) value hvalue, List.idxOf_cons_self]
      exact Nat.succ_pos _

/-- Distinct values are the values as they first occur. -/
theorem firstOccurrences_distinct (h : ∀ cell ∈ cells, cell.Valid) :
    FirstOccurrences cells (distinct [] cells) where
  nodup := pairwise_distinct.imp fun hlt heq => absurd (heq ▸ hlt) (Nat.lt_irrefl _)
  mem_iff _ := ⟨fun hmem => distinct_subset hmem, fun hmem => mem_distinct h hmem List.not_mem_nil⟩
  order := pairwise_distinct

/-! ## Keys -/

/-- **Cells told apart.** Two values that JSON knows have the same key if and only if they are the
same value: of the same kind, with the same numbers and texts, the same items and the same entries,
in the same order. So the keys of rows, found for every row of two tables, are the same if and only
if the cells are the same one by one; and the distinct values of a column are its values, each of
them once, in the order in which they first occur. -/
theorem keys_exact :
    (∀ value other : Value, value.Valid → other.Valid → (value.key = other.key ↔ value = other)) ∧
    (∀ (table other : Table) (leftOn rightOn : List String), table.ValidCells → other.ValidCells →
      leftOn.length = rightOn.length → (∀ name ∈ leftOn, table.has name) →
      (∀ name ∈ rightOn, other.has name) →
      ∃ keys keys', table.keyRows leftOn = .ok keys ∧ other.keyRows rightOn = .ok keys' ∧
        keys.length = table.length ∧ keys'.length = other.length ∧
        ∀ left right, left < table.length → right < other.length →
          (keys[left]? = keys'[right]? ↔
            ∀ pair ∈ leftOn.zip rightOn, table.cell pair.1 left = other.cell pair.2 right)) ∧
    (∀ (table : Table) (name : String), table.ValidCells → table.has name →
      ∃ cells found, table.cells name = .ok cells ∧ table.uniqueValues name = .ok found ∧
        ∀ list, FirstOccurrences cells list ↔ list = found) := by
  refine ⟨fun value other => Value.key_inj, ?_, ?_⟩
  · intro table other leftOn rightOn htable hother hlength hleft hright
    refine ⟨_, _, keyRows_eq hleft, keyRows_eq hright, by simp, by simp, ?_⟩
    intro left right hinside hinside'
    simp only [List.getElem?_map, List.getElem?_range hinside, List.getElem?_range hinside',
      Option.map_some, Option.some_inj]
    exact keyRow_inj htable hother hlength
  · intro table name htable hname
    obtain ⟨cells, hcells⟩ := Option.isSome_iff_exists.mp (has_iff_cells?.symm.trans hname)
    have hread : table.cells name = .ok cells := cells_eq_ok.mpr hcells
    have hfound := firstOccurrences_distinct (htable.cells? hcells)
    refine ⟨cells, distinct [] cells, hread, by rw [uniqueValues, hread]; rfl, fun list => ?_⟩
    refine ⟨fun h => h.unique hfound, ?_⟩
    rintro rfl
    exact hfound

/-- one, with a point -/
def oneWithPoint : Value := .number (.decimal (.finite false Binary64.one))

/-- cells that show a one in several ways -/
def ones : Table where
  columns := [⟨"mark",
    [.ofInt 1, oneWithPoint, .ofInt 1, .string "1", .list [.ofInt 1], .string "1"]⟩]
  index := [0, 1, 2, 3, 4, 5]

theorem keys_exact_ones :
    (Value.ofInt 1).key ≠ oneWithPoint.key ∧
      (∃ keys, ones.keyRows ["mark"] = .ok keys ∧ keys[0]? = keys[2]? ∧ keys[0]? ≠ keys[3]?) ∧
      ones.uniqueValues "mark" =
        .ok [.ofInt 1, oneWithPoint, .string "1", .list [.ofInt 1]] := by
  have hmem (cell value : Value) :
      value ∈ [.ofInt 1, cell, .string "1", .list [.ofInt 1]] ↔
        value ∈ [.ofInt 1, cell, .ofInt 1, .string "1", .list [.ofInt 1], .string "1"] := by
    simp only [List.mem_cons]
    tauto
  have hone : (Value.ofInt 1).Valid := ⟨by decide, by decide⟩
  have hpoint : oneWithPoint.Valid := ⟨by decide +kernel, by decide +kernel⟩
  have hvalid : ones.ValidCells := by
    simp [ValidCells, ones, hone, hpoint, Value.Valid, Value.ValidItems]
  obtain ⟨hvalues, hrows, hcolumns⟩ := keys_exact
  refine ⟨mt (hvalues _ _ hone hpoint).mp (by decide +kernel), ?_, ?_⟩
  · obtain ⟨keys, keys', hkeys, hkeys', -, -, hsame⟩ :=
      hrows ones ones ["mark"] ["mark"] hvalid hvalid rfl (by decide) (by decide)
    obtain rfl : keys = keys' := Except.ok.inj (hkeys.symm.trans hkeys')
    refine ⟨keys, hkeys, ?_, ?_⟩
    · exact (hsame 0 2 (by decide) (by decide)).mpr (by decide +kernel)
    · exact mt (hsame 0 3 (by decide) (by decide)).mp (by decide +kernel)
  · obtain ⟨cells, found, hcells, hfound, hlist⟩ := hcolumns ones "mark" hvalid (by decide)
    obtain rfl := Except.ok.inj hcells
    have hfirst : FirstOccurrences
        [.ofInt 1, oneWithPoint, .ofInt 1, .string "1", .list [.ofInt 1], .string "1"]
        [.ofInt 1, oneWithPoint, .string "1", .list [.ofInt 1]] :=
      ⟨by decide +kernel, hmem oneWithPoint, by decide +kernel⟩
    rw [hfound, (hlist _).mp hfirst]

end Table

end TableRecipe
